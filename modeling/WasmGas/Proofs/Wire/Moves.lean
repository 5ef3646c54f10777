import WasmGas.Proofs.Wire.Relocatable

/-! # Reading further on

Bytes that stand further on in a file are read the same way there. What is found is the same, and so
are the faults but for their offsets, which tell the distance (`Reader.Movable`). Every reader that
is relocatable can be moved (`Reader.Relocatable.movable`); the regions in it are cut out further on
as well, and whether a read goes past the end of one does not depend on where both stand.
-/

namespace WasmGas

open Leb128

/-- The same bytes further on in a file. -/
def Cursor.move (cursor : Cursor) (distance : Nat) : Cursor :=
  ⟨cursor.offset + distance, cursor.rest⟩

theorem Cursor.advance_move (cursor : Cursor) (distance count : Nat) :
    (cursor.move distance).advance count = (cursor.advance count).move distance := by
  simp only [move, advance, Nat.add_right_comm]

/-- Whether a read goes past the end of a region does not depend on where both stand. -/
theorem DecodeError.pastRegion_move (fault : DecodeError) (region : String)
    (start size distance : Nat) :
    (fault.move distance).pastRegion region (start + distance) size =
      (fault.pastRegion region start size).move distance := by
  cases fault with
  | truncated offset needed =>
      simp only [move, pastRegion]
      by_cases past : start + size < offset + needed
      · have further : start + distance + size < offset + distance + needed := by omega
        have taken : offset + distance + needed - (start + distance) = offset + needed - start := by
          omega
        rw [if_pos past, if_pos further, taken]
      · have inside : ¬ start + distance + size < offset + distance + needed := by omega
        rw [if_neg past, if_neg inside]
  | _ => rfl

namespace Reader

variable {α β : Type}

/-- What is found further on in a file, or what goes wrong there. -/
def moved (distance : Nat) :
    EStateM.Result DecodeError Cursor α → EStateM.Result DecodeError Cursor α
  | .ok a after => .ok a (after.move distance)
  | .error fault left => .error (fault.move distance) (left.move distance)

/-- A reader that reads the same bytes in the same way wherever they stand. -/
def Movable (reader : Reader α) : Prop :=
  ∀ distance cursor, reader (cursor.move distance) = moved distance (reader cursor)

namespace Movable

theorem pure (a : α) : Movable (Pure.pure a) := by
  intro distance cursor
  rfl

theorem bind {first : Reader α} {next : α → Reader β} (one : Movable first)
    (other : ∀ a, Movable (next a)) : Movable (first >>= next) := by
  intro distance cursor
  have further := one distance cursor
  cases found : first cursor with
  | ok a between =>
      rw [found] at further
      rw [bind_of_ok found, bind_of_ok further]
      exact other a distance between
  | error fault left =>
      rw [found] at further
      rw [bind_of_error found, bind_of_error further]
      rfl

theorem byte : Movable Reader.byte := by
  rintro distance ⟨offset, bytes⟩
  cases bytes with
  | nil => rfl
  | cons head tail =>
      change EStateM.Result.ok head (⟨offset + distance + 1, tail⟩ : Cursor) = _
      rw [Nat.add_right_comm]
      rfl

theorem take (count : Nat) : Movable (Reader.take count) := by
  intro distance cursor
  have same : (cursor.move distance).remaining = cursor.remaining := rfl
  rw [Reader.take, Reader.take, same]
  by_cases short : cursor.remaining < count
  · rw [if_pos short, if_pos short]
    rfl
  · rw [if_neg short, if_neg short, Cursor.advance_move]
    rfl

theorem rest : Movable Reader.rest := by
  intro distance cursor
  simp only [Reader.rest, Cursor.move, Cursor.advance, Cursor.remaining, moved, Nat.add_right_comm]

/-- How far a number goes is seen from its bytes alone. -/
theorem bounded (limit : Nat) (value? : Bytes → Option α) :
    Movable (Leb128.bounded limit value?) := by
  intro distance cursor
  have same : (cursor.move distance).rest = cursor.rest := rfl
  have long : (cursor.move distance).remaining = cursor.remaining := rfl
  have stop : (cursor.move distance).offset + cursor.remaining =
      cursor.offset + cursor.remaining + distance := Nat.add_right_comm ..
  simp only [Leb128.bounded, same, long, stop, Cursor.advance_move]
  cases (cursor.rest.take limit).findIdx? isLast with
  | some place =>
      simp only
      cases value? (cursor.rest.take (place + 1)) <;> rfl
  | none =>
      by_cases enough : limit ≤ cursor.remaining
      · simp only [enough, ↓reduceIte]
        rfl
      · simp only [enough, ↓reduceIte]
        rfl

/-- What is judged moves if the blame does. -/
theorem judging {first : Reader α} {accept? : α → Option β} {fault : α → Nat → DecodeError}
    (one : Movable first) (moves : ∀ (a : α) (start distance : Nat),
      fault a (start + distance) = (fault a start).move distance) :
    Movable (Reader.judging first accept? fault) := by
  intro distance cursor
  have further := one distance cursor
  cases found : first cursor with
  | ok a after =>
      rw [found] at further
      cases verdict : accept? a with
      | some b =>
          rw [judging_of_some found verdict, judging_of_some further verdict]
          rfl
      | none =>
          rw [judging_of_none found verdict, judging_of_none further verdict, Cursor.move,
            moves a cursor.offset distance]
          rfl
  | error other left =>
      rw [found] at further
      rw [judging_of_error found, judging_of_error further]
      rfl

/-- Entries that move do so until nothing is left. -/
theorem untilEmptyWithin {entry : Reader α} (each : Movable entry) (limit : Nat) :
    Movable (Reader.untilEmptyWithin entry limit) := by
  induction limit with
  | zero => exact pure []
  | succ limit movable =>
      rintro distance ⟨offset, bytes⟩
      by_cases empty : bytes = []
      · rw [empty, untilEmptyWithin_nil]
        exact untilEmptyWithin_nil entry (limit + 1) (offset + distance)
      · have more : (Cursor.move ⟨offset, bytes⟩ distance).rest ≠ [] := empty
        rw [untilEmptyWithin_succ more, untilEmptyWithin_succ empty]
        exact (each.bind fun head => movable.bind fun tail => pure (head :: tail)) distance _

/-- How many bytes of a window were read is a distance. -/
theorem within {inner : Reader α} (size : Nat) (movable : Movable inner) :
    Movable (Reader.within size inner) := by
  intro distance cursor
  by_cases enough : size ≤ cursor.remaining
  · have further := movable distance (cursor.window size)
    have window : (cursor.move distance).window size = (cursor.window size).move distance := rfl
    have long : size ≤ (cursor.move distance).remaining := enough
    rw [within_of_le enough, within_of_le long, window, further, Cursor.advance_move]
    cases inner (cursor.window size) with
    | ok a left =>
        have taken : left.offset + distance - (cursor.offset + distance) =
          left.offset - cursor.offset := Nat.add_sub_add_right ..
        simp only [moved, Cursor.move, taken]
    | error fault left => rfl
  · have short := Nat.lt_of_not_le enough
    have shorter : (cursor.move distance).remaining < size := short
    rw [within_of_lt short, within_of_lt shorter]
    rfl

/-- A region that is blamed names no place, so it moves. -/
theorem blaming (region : String) (size : Nat) {inner : Reader α} (movable : Movable inner) :
    Movable (Reader.blaming region size inner) := by
  intro distance cursor
  rw [Reader.blaming, Reader.blaming, movable distance cursor]
  cases inner cursor with
  | ok a left => rfl
  | error fault left =>
      exact congrArg (EStateM.Result.error · (left.move distance))
        (fault.pastRegion_move region cursor.offset size distance)

end Movable

namespace Relocatable

/-- **A reader that uses its place only for faults can be moved.** The induction is on how the
reader is put together. -/
theorem movable {reader : Reader α} (relocatable : Relocatable reader) : Movable reader := by
  induction relocatable with
  | pure a => exact .pure a
  | bind _ _ one other => exact one.bind other
  | byte => exact .byte
  | take count => exact .take count
  | rest => exact .rest
  | uint32 =>
      rw [funext readUInt32_eq_bounded]
      exact .bounded 5 _
  | int32 =>
      rw [funext readInt32_eq_bounded]
      exact .bounded 5 _
  | int64 =>
      rw [funext readInt64_eq_bounded]
      exact .bounded 10 _
  | judging _ blames one => exact one.judging blames.moves
  | untilEmpty _ each => exact fun distance cursor => each.untilEmptyWithin cursor.remaining _ _
  | within size _ inner => exact inner.within size
  | blaming region size _ inner => exact inner.blaming region size

/-- Bytes that were read to their end in one place are so in any other. -/
theorem readsAll {reader : Reader α} (relocatable : Relocatable reader) {offset : Nat}
    {bytes : Bytes} {after : Cursor} {a : α} (read : reader ⟨offset, bytes⟩ = .ok a after)
    (ends : after.rest = []) : reader.ReadsAll a bytes := by
  have movable := relocatable.movable
  have first : reader ⟨0, bytes⟩ = .ok a ⟨bytes.length, []⟩ := by
    have further := movable offset ⟨0, bytes⟩
    rw [Cursor.move, Nat.zero_add, read] at further
    cases found : reader ⟨0, bytes⟩ with
    | ok b last =>
        rw [found] at further
        injection further with same moved
        obtain ⟨used, advances⟩ := relocatable.advances found
        have nothing : last.rest = [] := by
          rw [← ends, moved]
          rfl
        have all := advances.rest
        rw [nothing, List.append_nil] at all
        have stop : last = ⟨bytes.length, []⟩ := by
          obtain ⟨stop, left⟩ := last
          have moved := advances.offset
          rw [Nat.zero_add, ← all] at moved
          cases nothing
          cases moved
          rfl
        rw [same, stop]
    | error fault left =>
        rw [found] at further
        cases further
  intro start
  have further := movable start ⟨0, bytes⟩
  rw [first, Cursor.move, Nat.zero_add] at further
  rw [further, moved, Cursor.move, Nat.add_comm]

end Relocatable

end Reader

end WasmGas

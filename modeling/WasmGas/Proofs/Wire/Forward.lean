import WasmGas.Proofs.Wire.Relocatable

/-! # Readers go forward

A reader that fails may have read something before, and the cursor that it leaves behind
(`Reader.left`) is then neither where it began nor where it would have got to. But it is further on,
and on the same bytes: this holds of every reader that is put together from single reads
(`Reader.Script.forward`).
-/

namespace WasmGas

open Leb128

namespace Reader

variable {α β : Type}

/-- The cursor that a reader leaves behind, also where it fails. -/
def left (reader : Reader α) (cursor : Cursor) : Cursor :=
  match reader cursor with
  | .ok _ after => after
  | .error _ after => after

theorem left_of_ok {reader : Reader α} {cursor after : Cursor} {a : α}
    (read : reader cursor = .ok a after) : reader.left cursor = after := by
  rw [left, read]

theorem left_of_error {reader : Reader α} {cursor after : Cursor} {fault : DecodeError}
    (failed : reader cursor = .error fault after) : reader.left cursor = after := by
  rw [left, failed]

theorem left_map (f : α → β) (reader : Reader α) (cursor : Cursor) :
    (f <$> reader).left cursor = reader.left cursor := by
  change (reader >>= fun a => Pure.pure (f a)).left cursor = _
  cases found : reader cursor with
  | ok a after => rw [left_of_ok found, left, bind_of_ok found, pure_apply]
  | error fault after => rw [left_of_error found, left_of_error (bind_of_error found)]

theorem value_map (f : α → β) (reader : Reader α) (cursor : Cursor) :
    (f <$> reader).value cursor = (reader.value cursor).map f := by
  change (reader >>= fun a => Pure.pure (f a)).value cursor = _
  cases found : reader cursor with
  | ok a after =>
      rw [value, value, bind_of_ok found, pure_apply, found]
      rfl
  | error fault after =>
      rw [value, value, bind_of_error found, found]
      rfl

/-- A reader goes only forward and stays on its cursor, whether or not it succeeds. -/
def Forward (reader : Reader α) : Prop :=
  ∀ cursor : Cursor, ∃ used, cursor.Advances used (reader.left cursor)

namespace Forward

/-- To skip bytes that are there is to go forward. -/
theorem ofAdvance {reader : Reader α}
    (skips : ∀ cursor : Cursor, ∃ count ≤ cursor.remaining,
      reader.left cursor = cursor.advance count) : Forward reader := by
  intro cursor
  obtain ⟨count, enough, moved⟩ := skips cursor
  exact ⟨_, moved ▸ Script.advances_take enough⟩

/-- A reader that stays where it is goes forward. -/
theorem ofUnmoved {reader : Reader α} (unmoved : ∀ cursor, reader.left cursor = cursor) :
    Forward reader :=
  fun cursor => ⟨[], (unmoved cursor).symm ▸ .refl cursor⟩

theorem pure (a : α) : Forward (Pure.pure a) := ofUnmoved fun _ => rfl

/-- What the second reader leaves behind comes after what the first one does. -/
theorem bind {first : Reader α} {next : α → Reader β} (one : Forward first)
    (other : ∀ a, Forward (next a)) : Forward (first >>= next) := by
  intro cursor
  obtain ⟨head, moved⟩ := one cursor
  cases found : first cursor with
  | ok a between =>
      rw [left_of_ok found] at moved
      obtain ⟨tail, further⟩ := other a between
      refine ⟨head ++ tail, moved.trans ?_⟩
      rwa [left, bind_of_ok found]
  | error fault last =>
      rw [left_of_error found] at moved
      rw [left_of_error (bind_of_error found)]
      exact ⟨head, moved⟩

theorem byte : Forward Reader.byte := by
  rintro ⟨start, bytes⟩
  cases bytes with
  | nil => exact ⟨[], .refl _⟩
  | cons head tail => exact ⟨[head], rfl, rfl⟩

/-- As many bytes as are taken are steps forward, and none where they are not there. -/
theorem take (count : Nat) : Forward (Reader.take count) := by
  intro cursor
  rw [left, Reader.take]
  by_cases short : cursor.remaining < count
  · rw [if_pos short]
    exact ⟨[], .refl cursor⟩
  · rw [if_neg short]
    exact ⟨_, Script.advances_take (Nat.le_of_not_lt short)⟩

theorem rest : Forward Reader.rest := ofAdvance fun cursor => ⟨cursor.remaining, le_rfl, rfl⟩

/-- The groups of a number are taken also if there is no last one or the value is out of range. -/
theorem bounded (limit : Nat) (value? : Bytes → Option α) : Forward (bounded limit value?) := by
  refine ofAdvance fun cursor => ?_
  rw [left, Leb128.bounded]
  cases found : (cursor.rest.take limit).findIdx? isLast with
  | some place =>
      obtain ⟨there, _⟩ := List.findIdx?_eq_some_iff_getElem.mp found
      rw [List.length_take] at there
      refine ⟨place + 1, there.trans_le (min_le_right _ _), ?_⟩
      dsimp only
      cases value? (cursor.rest.take (place + 1)) <;> rfl
  | none =>
      by_cases enough : limit ≤ cursor.remaining
      · exact ⟨limit, enough, by simp only [if_pos enough]⟩
      · exact ⟨cursor.remaining, le_rfl, by simp only [if_neg enough]⟩

/-- Entries that go forward go forward until nothing is left. -/
theorem untilEmptyWithin {entry : Reader α} (each : Forward entry) (limit : Nat) :
    Forward (Reader.untilEmptyWithin entry limit) := by
  induction limit with
  | zero => exact pure []
  | succ limit others =>
      rintro ⟨start, bytes⟩
      by_cases empty : bytes = []
      · rw [empty, left_of_ok (untilEmptyWithin_nil entry _ start)]
        exact ⟨[], .refl _⟩
      · rw [left, untilEmptyWithin_succ empty]
        exact (each.bind fun head => others.bind fun tail => pure (head :: tail)) _

/-- A window is skipped as a whole, whatever is read from it. -/
theorem within (size : Nat) (inner : Reader α) : Forward (Reader.within size inner) := by
  intro cursor
  by_cases enough : size ≤ cursor.remaining
  · have skipped : (Reader.within size inner).left cursor = cursor.advance size := by
      rw [left, within_of_le enough]
      cases inner (cursor.window size) <;> rfl
    exact ⟨_, skipped ▸ Script.advances_take enough⟩
  · rw [left_of_error (within_of_lt (Nat.lt_of_not_le enough))]
    exact ⟨[], .refl cursor⟩

/-- Blame moves no cursor. -/
theorem blaming (region : String) (size : Nat) {inner : Reader α} (forward : Forward inner) :
    Forward (Reader.blaming region size inner) := by
  intro cursor
  have same : (Reader.blaming region size inner).left cursor = inner.left cursor := by
    rw [left, left, Reader.blaming]
    cases inner cursor <;> rfl
  rw [same]
  exact forward cursor

end Forward

/-- **Readers go forward.** The induction is on how the reader is put together. -/
theorem Script.forward {reader : Reader α} (script : Script reader) : Forward reader := by
  induction script with
  | pure a => exact .pure a
  | throw fault => exact .ofUnmoved fun _ => rfl
  | bind _ _ one other => exact one.bind other
  | offset => exact .ofUnmoved fun _ => rfl
  | byte => exact .byte
  | take count => exact .take count
  | rest => exact .rest
  | uint32 => exact funext readUInt32_eq_bounded ▸ .bounded 5 _
  | int32 => exact funext readInt32_eq_bounded ▸ .bounded 5 _
  | int64 => exact funext readInt64_eq_bounded ▸ .bounded 10 _
  | untilEmpty _ each => exact fun cursor => each.untilEmptyWithin cursor.remaining cursor
  | within size _ _ => exact .within size _
  | blaming region size _ inner => exact inner.blaming region size

end Reader

end WasmGas

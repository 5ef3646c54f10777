import WasmGas.Proofs.Wire.Relocatable

/-! # Where faults lie

Offsets count from the start of the file, however deep in it a reader stands: a window begins where
it was cut out. So if a relocatable reader fails on bytes that lie in a file, then the file shows
the fault at the offset that is told (`Reader.Relocatable.shown`), and this holds of every fault
for which a file holds no module (`Module.decode_error_shown`).
-/

namespace WasmGas

open Leb128

/-- A window on a file ends within it. -/
theorem Cursor.LiesIn.stop_le {cursor : Cursor} {file : Bytes} (lies : cursor.LiesIn file) :
    cursor.stop ≤ file.length := by
  obtain ⟨inside, rest⟩ := lies
  have long := rest.length_le
  rw [List.length_drop] at long
  rw [stop, remaining]
  omega

/-! ## Numbers -/

namespace Leb128

variable {α : Type} {cursor left : Cursor} {file : Bytes} {fault : DecodeError}

/-- Four groups that announce another one are enough for a number to be too large. -/
theorem varintOverflow_shown (lies : cursor.LiesIn file) (long : 5 ≤ cursor.remaining)
    (announce : ∀ group ∈ cursor.rest.take 4, isLast group = false) :
    (DecodeError.varintOverflow cursor.offset).ShownIn file := by
  have stop := lies.stop_le
  rw [Cursor.stop] at stop
  obtain ⟨following, whole⟩ := lies.rest
  rw [Cursor.remaining] at long stop
  refine ⟨by omega, ?_⟩
  rw [← whole, List.take_append_of_le_length (by omega)]
  exact announce

/-- A number that is out of range has more than four groups. -/
theorem bounded_shown {limit : Nat} {value? : Bytes → Option α} (five : 5 ≤ limit)
    (fits : ∀ groups, Groups groups → groups.length ≤ 4 → value? groups ≠ none)
    (lies : cursor.LiesIn file) (failed : bounded limit value? cursor = .error fault left) :
    fault.ShownIn file := by
  unfold bounded at failed
  cases found : (cursor.rest.take limit).findIdx? isLast with
  | some place =>
      obtain ⟨bound, _, announce⟩ := List.findIdx?_eq_some_iff_getElem.mp found
      rw [List.length_take] at bound
      simp only [found] at failed
      cases value : value? (cursor.rest.take (place + 1)) with
      | some a =>
          simp only [value] at failed
          cases failed
      | none =>
          simp only [value] at failed
          cases failed
          have many : ¬ (cursor.rest.take (place + 1)).length ≤ 4 :=
            fun few => fits _ (groups_of_findIdx? found) few value
          rw [List.length_take] at many
          refine varintOverflow_shown lies (by rw [Cursor.remaining]; omega) fun group listed => ?_
          obtain ⟨j, small, rfl⟩ := List.getElem_of_mem listed
          rw [List.length_take] at small
          have before := announce j (by omega)
          rwa [List.getElem_take, Bool.not_eq_true, ← List.getElem_take] at before
  | none =>
      have announce := List.findIdx?_eq_none_iff.mp found
      simp only [found] at failed
      by_cases enough : limit ≤ cursor.remaining
      · rw [if_pos enough] at failed
        cases failed
        refine varintOverflow_shown lies (five.trans enough) fun group listed => ?_
        exact announce group (List.take_subset_take_left _ (by omega) listed)
      · rw [if_neg enough] at failed
        cases failed
        exact ⟨lies.stop_le, le_rfl⟩

/-- The fault of an unsigned number shows at a place in the file. -/
theorem readUInt32_shown (lies : cursor.LiesIn file)
    (failed : readUInt32 cursor = .error fault left) : fault.ShownIn file := by
  rw [readUInt32_eq_bounded] at failed
  refine bounded_shown (by decide) (fun groups _ few => ?_) lies failed
  have small := toNat_lt groups
  have power : 128 ^ groups.length ≤ 128 ^ 4 := Nat.pow_le_pow_right (by decide) few
  rw [toNat_eq_unsigned] at small
  have fits : (0 : Int) ≤ unsigned groups ∧ (unsigned groups : Int) ≤ 0xffffffff := by omega
  rw [uint32?, ranged, if_pos fits]
  exact Option.some_ne_none _

theorem readInt32_shown (lies : cursor.LiesIn file)
    (failed : readInt32 cursor = .error fault left) : fault.ShownIn file := by
  rw [readInt32_eq_bounded] at failed
  refine bounded_shown (by decide) (fun groups complete few => ?_) lies failed
  obtain ⟨lower, upper⟩ := inRange_toInt complete
  have power : (128 : Int) ^ (groups.length - 1) ≤ 128 ^ 3 :=
    pow_le_pow_right₀ (by norm_num) (by omega)
  rw [toInt_eq_signed] at lower upper
  have fits : (-0x80000000 : Int) ≤ signed groups ∧ signed groups ≤ 0x7fffffff := by omega
  rw [int32?, ranged, if_pos fits]
  exact Option.some_ne_none _

theorem readInt64_shown (lies : cursor.LiesIn file)
    (failed : readInt64 cursor = .error fault left) : fault.ShownIn file := by
  rw [readInt64_eq_bounded] at failed
  exact bounded_shown (by decide) (fun _ _ _ => Option.some_ne_none _) lies failed

end Leb128

/-! ## Readers -/

/-- A region is blamed only for reads that go past its end. -/
theorem DecodeError.ShownIn.pastRegion {fault : DecodeError} {file : Bytes}
    (shown : fault.ShownIn file) (region : String) (start size : Nat) :
    (fault.pastRegion region start size).ShownIn file := by
  cases fault with
  | truncated offset needed =>
      rw [DecodeError.pastRegion]
      by_cases past : start + size < offset + needed
      · rw [if_pos past]
        change offset + needed - start ≠ size
        omega
      · rwa [if_neg past]
  | _ => exact shown

namespace Reader

variable {α : Type}

/-- Bytes that lack are missed at a place in the file. -/
theorem take_shown {count : Nat} {cursor left : Cursor} {file : Bytes} {fault : DecodeError}
    (lies : cursor.LiesIn file) (failed : take count cursor = .error fault left) :
    fault.ShownIn file := by
  rw [take] at failed
  by_cases short : cursor.remaining < count
  · rw [if_pos short] at failed
    cases failed
    exact ⟨lies.inside, Nat.sub_pos_of_lt short⟩
  · rw [if_neg short] at failed
    cases failed

/-- A window fails where it cannot be cut out, or like its reader. -/
theorem within_eq_error {size : Nat} {inner : Reader α} {cursor left : Cursor} {fault : DecodeError}
    (failed : within size inner cursor = .error fault left) :
    take size cursor = .error fault left ∨
      size ≤ cursor.remaining ∧ ∃ left, inner (cursor.window size) = .error fault left := by
  by_cases enough : size ≤ cursor.remaining
  · rw [within_of_le enough] at failed
    cases found : inner (cursor.window size) with
    | ok a last =>
        rw [found] at failed
        cases failed
    | error other last =>
        rw [found] at failed
        cases failed
        exact Or.inr ⟨enough, last, rfl⟩
  · have short := Nat.lt_of_not_le enough
    rw [within_of_lt short] at failed
    cases failed
    exact Or.inl (if_pos short)

/-- The fault of an entry shows wherever in the list it is. -/
theorem untilEmptyWithin_shown {entry : Reader α} {file : Bytes}
    (relocatable : Relocatable entry)
    (each : ∀ ⦃cursor left : Cursor⦄ ⦃fault : DecodeError⦄, cursor.LiesIn file →
      entry cursor = .error fault left → fault.ShownIn file)
    (limit : Nat) {cursor left : Cursor} {fault : DecodeError} (lies : cursor.LiesIn file)
    (failed : untilEmptyWithin entry limit cursor = .error fault left) : fault.ShownIn file := by
  induction limit generalizing cursor with
  | zero => cases failed
  | succ limit shown =>
      obtain ⟨offset, bytes⟩ := cursor
      by_cases empty : bytes = []
      · rw [empty, untilEmptyWithin_nil] at failed
        cases failed
      · rw [untilEmptyWithin_succ empty] at failed
        rcases bind_eq_error.mp failed with failed | ⟨head, between, found, failed⟩
        · exact each lies failed
        · obtain ⟨used, advances⟩ := relocatable.advances found
          rcases bind_eq_error.mp failed with failed | ⟨_, _, _, failed⟩
          · exact shown (lies.advance advances) failed
          · cases failed

/-- **A fault lies where it is told to lie.** The induction is on how the reader is put together.
What a reader has read lies in the file, and so does what is left for the next one. -/
theorem Relocatable.shown {reader : Reader α} (relocatable : Relocatable reader) {file : Bytes}
    {cursor left : Cursor} {fault : DecodeError} (lies : cursor.LiesIn file)
    (failed : reader cursor = .error fault left) : fault.ShownIn file := by
  induction relocatable generalizing cursor left fault with
  | pure a => cases failed
  | bind first _ one other =>
      rcases bind_eq_error.mp failed with failed | ⟨a, between, found, failed⟩
      · exact one lies failed
      · obtain ⟨used, advances⟩ := first.advances found
        exact other a (lies.advance advances) failed
  | byte =>
      obtain ⟨offset, bytes⟩ := cursor
      cases bytes with
      | nil =>
          cases failed
          exact ⟨lies.inside, le_rfl⟩
      | cons head tail => cases failed
  | take count => exact take_shown lies failed
  | rest => cases failed
  | uint32 => exact readUInt32_shown lies failed
  | int32 => exact readInt32_shown lies failed
  | int64 => exact readInt64_shown lies failed
  | @judging _ _ first accept? told _ blames one =>
      cases found : first cursor with
      | ok a between =>
          cases verdict : accept? a with
          | some b =>
              rw [judging_of_some found verdict] at failed
              cases failed
          | none =>
              rw [judging_of_none found verdict] at failed
              cases failed
              exact blames.shown lies found verdict
      | error other last =>
          rw [judging_of_error found] at failed
          cases failed
          exact one lies found
  | untilEmpty entry each =>
      exact untilEmptyWithin_shown entry (fun _ _ _ => each) cursor.remaining lies failed
  | within size _ inner =>
      rcases within_eq_error failed with failed | ⟨_, _, failed⟩
      · exact take_shown lies failed
      -- A region is the front of what is left, so it lies in the file as the cursor does.
      · have window : (cursor.window size).LiesIn file :=
          ⟨lies.inside, (List.take_prefix size cursor.rest).trans lies.rest⟩
        exact inner window failed
  | @blaming _ reader region size _ inner =>
      rw [Reader.blaming] at failed
      cases found : reader cursor with
      | ok a after =>
          rw [found] at failed
          cases failed
      | error other last =>
          rw [found] at failed
          cases failed
          exact (inner lies found).pastRegion region cursor.offset size

end Reader

namespace Module

/-- **Faults of a file.** If a file holds no module, then the fault that is told for it is shown by
the file: the byte or the bytes that are found fault with stand at the offset that is told, counted
from the start of the file, and a size that is blamed is not the size that was taken up. -/
theorem decode_error_shown {file : Bytes} {fault : DecodeError}
    (failed : decode file = .error fault) : fault.ShownIn file := by
  have lies : (Cursor.ofBytes file).LiesIn file := ⟨Nat.zero_le _, List.prefix_rfl⟩
  unfold decode Reader.value at failed
  cases found : read (.ofBytes file) with
  | ok m after =>
      rw [found] at failed
      cases failed
  | error other left =>
      rw [found] at failed
      cases failed
      exact relocatable.shown lies found

/-- A debug name in a subsection, of which the only byte is no text. -/
def misnamedFile : Bytes :=
  [0x00, 0x61, 0x73, 0x6d, 0x01, 0x00, 0x00, 0x00, 0x00, 0x09, 0x04, 0x6e, 0x61, 0x6d, 0x65, 0x00,
    0x02, 0x01, 0xff]

/-- A name whose bytes are no text. -/
theorem decode_error_shown_misnamed :
    decode misnamedFile = .error (.invalidUtf8 17) ∧
      (DecodeError.invalidUtf8 17).ShownIn misnamedFile := by
  have failed : decode misnamedFile = .error (.invalidUtf8 17) := by decide +kernel
  exact ⟨failed, decode_error_shown failed⟩

end Module

end WasmGas

import Mathlib.Data.Nat.Digits.Defs
import WasmGas.Proofs.Wire.Groups

/-! # Which numbers are accepted

The groups of a number are the digits of its value to the base 128 (`Leb128.unsigned`); with a
sign, the highest bit of the last digit counts negatively (`Leb128.signed`). A reader of numbers
looks at the bytes up to the first one that announces no other, but at no more than its limit, and
is to accept them exactly if their value is in range (`Leb128.bounded`). The readers of 32 bits do
just that. The reader of 64 bits accepts ten groups whatever they say and cuts their value to
64 bits, so it goes wrong exactly where the tenth group says more than the sign
(`Leb128.accepted_numbers`).
-/

namespace WasmGas.Leb128

variable {α : Type}

/-! ## Values by place -/

/-- The digits to the base 128 that some groups hold, the least significant one first. -/
def digits (groups : Bytes) : List Nat := groups.map (·.toNat % 128)

/-- The value of groups without a sign. -/
def unsigned (groups : Bytes) : Nat := Nat.ofDigits 128 (digits groups)

/-- The value of groups with a sign, which is the highest of the seven bits of the last one. -/
def signed (groups : Bytes) : Int :=
  if (digits groups).getLast?.any (64 ≤ ·) then unsigned groups - 128 ^ groups.length
  else unsigned groups

/-- Groups say the sum of their bits. -/
theorem toNat_eq_unsigned (groups : Bytes) : toNat groups = unsigned groups := by
  induction groups with
  | nil => rfl
  | cons group groups same =>
      simp only [toNat, unsigned, digits, List.map_cons, Nat.ofDigits_cons] at same ⊢
      rw [same]

/-- Groups say the sum of their bits, with the sign in the last one. -/
theorem toInt_eq_signed (groups : Bytes) : toInt groups = signed groups := by
  induction groups with
  | nil => rfl
  | cons group groups same =>
      cases groups with
      | nil =>
          simp only [toInt, signed, unsigned, digits, List.map_cons, List.map_nil,
            Nat.ofDigits_singleton, List.getLast?_singleton, Option.any_some, decide_eq_true_eq,
            List.length_singleton, pow_one]
          split <;> split <;> omega
      | cons next groups =>
          rw [toInt_cons (List.cons_ne_nil next groups), same]
          simp only [signed, unsigned, digits, List.map_cons, Nat.ofDigits_cons, List.length_cons,
            List.getLast?_cons_cons, pow_succ]
          split <;> push_cast <;> ring

/-- The last group counts as many times more as there are groups before it. -/
theorem toInt_concat (front : Bytes) (last : UInt8) :
    toInt (front ++ [last]) = toNat front + 128 ^ front.length * toInt [last] := by
  induction front with
  | nil => simp [toNat]
  | cons group front same =>
      rw [List.cons_append, toInt_cons (by simp), same, toNat, List.length_cons, pow_succ]
      push_cast
      ring

/-! ## Reading up to a limit -/

/-- Reads a number of at most `limit` groups, where `value?` is what groups stand for unless they
are out of range. -/
def bounded (limit : Nat) (value? : Bytes → Option α) : Reader α := fun cursor =>
  match (cursor.rest.take limit).findIdx? isLast with
  | some place =>
    match value? (cursor.rest.take (place + 1)) with
    | some a => .ok a (cursor.advance (place + 1))
    | none => .error (.varintOverflow cursor.offset) (cursor.advance (place + 1))
  | none =>
    if limit ≤ cursor.remaining then
      .error (.varintOverflow cursor.offset) (cursor.advance limit)
    else
      .error (.truncated (cursor.offset + cursor.remaining) 1) (cursor.advance cursor.remaining)

/-- Groups are read up to the first that announces no other, if the limit allows. -/
theorem readGroups_eq (start limit : Nat) (cursor : Cursor) :
    readGroups start limit cursor =
      match (cursor.rest.take limit).findIdx? isLast with
      | some place => .ok (cursor.rest.take (place + 1)) (cursor.advance (place + 1))
      | none =>
        if limit ≤ cursor.remaining then .error (.varintOverflow start) (cursor.advance limit)
        else
          .error (.truncated (cursor.offset + cursor.remaining) 1)
            (cursor.advance cursor.remaining) := by
  induction limit generalizing cursor with
  | zero => rfl
  | succ limit further =>
      obtain ⟨offset, rest⟩ := cursor
      cases rest with
      | nil => rfl
      | cons head tail =>
          have one : Reader.byte ⟨offset, head :: tail⟩ = .ok head ⟨offset + 1, tail⟩ := rfl
          have moved (count : Nat) : Cursor.advance ⟨offset + 1, tail⟩ count =
              Cursor.advance ⟨offset, head :: tail⟩ (count + 1) := by
            simp only [Cursor.advance, List.drop_succ_cons, Nat.add_assoc, Nat.add_comm 1]
          rw [readGroups, Reader.bind_of_ok one, List.take_succ_cons, List.findIdx?_cons]
          cases ends : isLast head with
          | true => rfl
          | false =>
              have others := further ⟨offset + 1, tail⟩
              simp only [Bool.false_eq_true, ↓reduceIte]
              cases found : (tail.take limit).findIdx? isLast with
              | some place =>
                  simp only [found, moved] at others
                  rw [Reader.bind_of_ok others, Reader.pure_apply]
                  rfl
              | none =>
                  simp only [found, moved] at others
                  by_cases enough : limit ≤ Cursor.remaining ⟨offset + 1, tail⟩
                  · rw [if_pos enough] at others
                    rw [Reader.bind_of_error others]
                    exact (if_pos (Nat.succ_le_succ enough)).symm
                  · rw [if_neg enough] at others
                    rw [Reader.bind_of_error others]
                    refine Eq.trans ?_ (if_neg (mt Nat.le_of_succ_le_succ enough)).symm
                    simp only [Cursor.remaining, List.length_cons, Nat.add_assoc, Nat.add_comm 1]

/-- Up to the first byte that announces no other stands a number. -/
theorem groups_of_findIdx? {limit place : Nat} {cursor : Cursor}
    (found : (cursor.rest.take limit).findIdx? isLast = some place) :
    Groups (cursor.rest.take (place + 1)) := by
  have read := readGroups_eq 0 limit cursor
  rw [found] at read
  exact (groups_of_readGroups read).1

/-- A reader is bounded if it reads groups and calls those an overflow that are out of range. -/
theorem readGroups_bind_eq_bounded {limit : Nat} {value? : Bytes → Option α}
    {make : Bytes → Reader α} {cursor : Cursor}
    (made : ∀ groups, make groups =
      match value? groups with
      | some a => pure a
      | none => throw (.varintOverflow cursor.offset)) :
    (readGroups cursor.offset limit >>= make) cursor = bounded limit value? cursor := by
  have read := readGroups_eq cursor.offset limit cursor
  unfold bounded
  cases found : (cursor.rest.take limit).findIdx? isLast with
  | some place =>
      simp only [found] at read
      rw [Reader.bind_of_ok read, made]
      cases value : value? (cursor.rest.take (place + 1)) <;> simp only [value] <;> rfl
  | none =>
      simp only [found] at read
      by_cases enough : limit ≤ cursor.remaining
      · rw [if_pos enough] at read
        rw [Reader.bind_of_error read]
        exact (if_pos enough).symm
      · rw [if_neg enough] at read
        rw [Reader.bind_of_error read]
        exact (if_neg enough).symm

/-! ## Ranges -/

/-- What is made of a value between two others. -/
def ranged (least greatest : Int) (make : Int → α) (value : Int) : Option α :=
  if least ≤ value ∧ value ≤ greatest then some (make value) else none

def uint32? : Int → Option UInt32 := ranged 0 0xffffffff fun value => UInt32.ofNat value.toNat

def int32? : Int → Option Int32 := ranged (-0x80000000) 0x7fffffff Int32.ofInt

def int64? : Int → Option Int64 := ranged (-0x8000000000000000) 0x7fffffffffffffff Int64.ofInt

/-- A value is in range if it is that of some number, and that number is made of it. -/
theorem ranged_eq_some_iff {least greatest : Int} {make : Int → α} (toInt : α → Int)
    (bounds : ∀ a, least ≤ toInt a ∧ toInt a ≤ greatest) (make_toInt : ∀ a, make (toInt a) = a)
    (toInt_make : ∀ value, least ≤ value → value ≤ greatest → toInt (make value) = value)
    {value : Int} {a : α} : ranged least greatest make value = some a ↔ toInt a = value := by
  rw [ranged, Option.ite_none_right_eq_some, Option.some_inj]
  constructor
  · rintro ⟨⟨lower, upper⟩, rfl⟩
    exact toInt_make value lower upper
  · rintro rfl
    exact ⟨bounds a, make_toInt a⟩

/-- A value is an unsigned number of four bytes if it is in their range. -/
theorem uint32?_eq_some_iff {value : Int} {n : UInt32} :
    uint32? value = some n ↔ (n.toNat : Int) = value := by
  refine ranged_eq_some_iff (fun n : UInt32 => (n.toNat : Int)) (fun n => ?_) (fun n => ?_)
    fun value lower upper => ?_
  · have bounded := n.toNat_lt
    omega
  · rw [Int.toNat_natCast, UInt32.ofNat_toNat]
  · rw [UInt32.toNat_ofNat_of_lt' (by rw [UInt32.size]; omega)]
    exact Int.toNat_of_nonneg lower

theorem int32?_eq_some_iff {value : Int} {i : Int32} : int32? value = some i ↔ i.toInt = value :=
  ranged_eq_some_iff Int32.toInt (fun i => ⟨i.le_toInt, Int.le_of_lt_add_one i.toInt_lt⟩)
    (fun _ => Int32.ofInt_toInt _)
    fun _ lower upper => Int32.toInt_ofInt_of_le lower (Int.lt_add_one_of_le upper)

theorem int64?_eq_some_iff {value : Int} {i : Int64} : int64? value = some i ↔ i.toInt = value :=
  ranged_eq_some_iff Int64.toInt (fun i => ⟨i.le_toInt, Int.le_of_lt_add_one i.toInt_lt⟩)
    (fun _ => Int64.ofInt_toInt _)
    fun _ lower upper => Int64.toInt_ofInt_of_le lower (Int.lt_add_one_of_le upper)

/-! ## The readers -/

/-- An unsigned number is read from at most five groups and judged by its whole value. -/
theorem readUInt32_eq_bounded (cursor : Cursor) :
    readUInt32 cursor = bounded 5 (fun groups => uint32? (unsigned groups)) cursor := by
  refine readGroups_bind_eq_bounded fun groups => ?_
  simp only [toNat_eq_unsigned, uint32?, ranged, Int.toNat_natCast]
  by_cases fits : unsigned groups < UInt32.size
  · have inside : (0 : Int) ≤ unsigned groups ∧ (unsigned groups : Int) ≤ 0xffffffff := by
      rw [UInt32.size] at fits
      omega
    rw [if_pos fits, if_pos inside]
  · have outside : ¬ ((0 : Int) ≤ unsigned groups ∧ (unsigned groups : Int) ≤ 0xffffffff) := by
      rw [UInt32.size] at fits
      omega
    rw [if_neg fits, if_neg outside]

theorem readInt32_eq_bounded (cursor : Cursor) :
    readInt32 cursor = bounded 5 (fun groups => int32? (signed groups)) cursor := by
  refine readGroups_bind_eq_bounded fun groups => ?_
  simp only [toInt_eq_signed, int32?, ranged]
  by_cases fits : -0x80000000 ≤ signed groups ∧ signed groups < 0x80000000
  · rw [if_pos fits, if_pos ⟨fits.1, Int.le_of_lt_add_one fits.2⟩]
  · rw [if_neg fits, if_neg fun inside => fits ⟨inside.1, Int.lt_add_one_of_le inside.2⟩]

/-- Of a number of 64 bits no value is out of range. -/
theorem readInt64_eq_bounded (cursor : Cursor) :
    readInt64 cursor = bounded 10 (fun groups => some (Int64.ofInt (signed groups))) cursor := by
  refine readGroups_bind_eq_bounded fun groups => ?_
  rw [toInt_eq_signed]

/-! ## The tenth group -/

/-- A value is the signed number of eight bytes that it wraps to if it is in their range. -/
theorem int64?_eq_some_ofInt_iff {value : Int} :
    int64? value = some (Int64.ofInt value) ↔
      -0x8000000000000000 ≤ value ∧ value ≤ 0x7fffffffffffffff := by
  rw [int64?, ranged, Option.ite_none_right_eq_some, and_iff_left rfl]

/-- Ten groups are in range if the last one says nothing but the sign. -/
theorem int64_of_ten {front : Bytes} {last : UInt8} (nine : front.length = 9)
    (ends : isLast last = true) :
    (-0x8000000000000000 ≤ signed (front ++ [last]) ∧
      signed (front ++ [last]) ≤ 0x7fffffffffffffff) ↔ last = 0x00 ∨ last = 0x7f := by
  have bounded := toNat_lt front
  rw [nine] at bounded
  have small : last.toNat < 128 := of_decide_eq_true ends
  have all : (0x7f : UInt8).toNat = 127 := rfl
  rw [← toInt_eq_signed, toInt_concat, nine, toInt, Nat.mod_eq_of_lt small,
    ← UInt8.toNat_inj, ← UInt8.toNat_inj, all]
  norm_num at bounded ⊢
  split <;> omega

/-- Where a number ends in time, the reader of 64 bits is right if its value is in range. -/
theorem readInt64_eq_iff_of_findIdx? {cursor : Cursor} {place : Nat}
    (found : (cursor.rest.take 10).findIdx? isLast = some place) :
    readInt64 cursor = bounded 10 (fun groups => int64? (signed groups)) cursor ↔
      int64? (signed (cursor.rest.take (place + 1))) =
        some (Int64.ofInt (signed (cursor.rest.take (place + 1)))) := by
  rw [readInt64_eq_bounded]
  simp only [bounded, found]
  cases int64? (signed (cursor.rest.take (place + 1))) with
  | none => exact ⟨nofun, nofun⟩
  | some i =>
      rw [EStateM.Result.ok.injEq, and_iff_left rfl, Option.some_inj]
      exact eq_comm

/-- The reader of 64 bits accepts the values in range and no others, but for ten groups of which
the last says more than the sign. -/
theorem readInt64_eq_iff (cursor : Cursor) :
    readInt64 cursor = bounded 10 (fun groups => int64? (signed groups)) cursor ↔
      ((cursor.rest.take 10).findIdx? isLast = some 9 →
        cursor.rest[9]? = some 0x00 ∨ cursor.rest[9]? = some 0x7f) := by
  cases found : (cursor.rest.take 10).findIdx? isLast with
  | none =>
      rw [readInt64_eq_bounded]
      simp only [bounded, found]
      exact ⟨fun _ => nofun, fun _ => trivial⟩
  | some place =>
      rw [readInt64_eq_iff_of_findIdx? found, int64?_eq_some_ofInt_iff, Option.some_inj]
      obtain ⟨bound, ends, announces⟩ := List.findIdx?_eq_some_iff_getElem.mp found
      rw [List.length_take] at bound
      by_cases tenth : place = 9
      · subst tenth
        have there : 9 < cursor.rest.length := by omega
        rw [List.getElem_take] at ends
        have nine : (cursor.rest.take 9).length = 9 := List.length_take_of_le there.le
        rw [List.take_add_one, List.getElem?_eq_getElem there, Option.toList_some,
          int64_of_ten nine ends, Option.some_inj, Option.some_inj]
        exact ⟨fun either _ => either, fun either => either rfl⟩
      · have short : (cursor.rest.take (place + 1)).length ≤ 9 := by
          rw [List.length_take]
          omega
        have fits := inRange_of_few (groups_of_findIdx? found) short
        rw [toInt_eq_signed] at fits
        exact ⟨fun _ last => absurd last tenth, fun _ => fits⟩

/-- **Which numbers are accepted.** The readers of 32 bits accept exactly the values in range. The
reader of 64 bits cuts every value to 64 bits, so that it accepts values out of range, but only
such as take ten groups. -/
theorem accepted_numbers (cursor : Cursor) :
    readUInt32 cursor = bounded 5 (fun groups => uint32? (unsigned groups)) cursor ∧
      readInt32 cursor = bounded 5 (fun groups => int32? (signed groups)) cursor ∧
      readInt64 cursor = bounded 10 (fun groups => some (Int64.ofInt (signed groups))) cursor ∧
      (readInt64 cursor = bounded 10 (fun groups => int64? (signed groups)) cursor ↔
        ((cursor.rest.take 10).findIdx? isLast = some 9 →
          cursor.rest[9]? = some 0x00 ∨ cursor.rest[9]? = some 0x7f)) :=
  ⟨readUInt32_eq_bounded cursor, readInt32_eq_bounded cursor, readInt64_eq_bounded cursor,
    readInt64_eq_iff cursor⟩

/-- Ten groups that stand for 2^64. -/
def overlong : Bytes := [0x80, 0x80, 0x80, 0x80, 0x80, 0x80, 0x80, 0x80, 0x80, 0x02]

/-- 2^64 is read as 0, although it is out of range. -/
theorem accepted_overlong :
    signed overlong = 0x10000000000000000 ∧
      readInt64 (.ofBytes overlong) = .ok 0 ⟨10, []⟩ ∧
      bounded 10 (fun groups => int64? (signed groups)) (.ofBytes overlong) =
        .error (.varintOverflow 0) ⟨10, []⟩ := by
  refine ⟨?_, rfl, rfl⟩
  decide +kernel

end WasmGas.Leb128

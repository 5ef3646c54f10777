import Mathlib.Algebra.Order.Ring.Int
import Mathlib.Algebra.Order.Ring.Nat
import Mathlib.Tactic.Ring
import WasmGas.Proofs.Wire.Reader
import WasmGas.Wire.Leb128

/-! # The shortest groups of a number

Groups of seven bits end with the first one whose highest bit is not set
(`Leb128.Groups`). A number of `k` groups lies in a range that depends on `k` alone, and the
groups that are written for a number in that range are at most `k`. Hence what is written
for a number that was read is never longer than what was read, however far the number was
padded (`Leb128.length_uint32_le`, `Leb128.length_int32_le`, `Leb128.length_int64_le`), and
what was written is read back: both together are what is asked of the reader of a number
(`Leb128.ReadsNumber`).
-/

namespace WasmGas.Leb128

/-- Bytes that hold one number: each but the last announces another one. -/
inductive Groups : Bytes → Prop where
  | last {group : UInt8} (ends : isLast group = true) : Groups [group]
  | inner {group : UInt8} {groups : Bytes} (announces : isLast group = false)
      (others : Groups groups) : Groups (group :: groups)

theorem Groups.ne_nil {groups : Bytes} (complete : Groups groups) : groups ≠ [] := by
  cases complete <;> exact List.cons_ne_nil _ _

theorem isLast_lastGroup (n : Nat) : isLast (lastGroup n) = true := by
  simp only [isLast, lastGroup, UInt8.toNat_ofNat', decide_eq_true_eq]
  omega

theorem isLast_innerGroup (n : Nat) : isLast (innerGroup n) = false := by
  simp only [isLast, innerGroup, UInt8.toNat_ofNat', decide_eq_false_iff_not]
  omega

theorem toNat_lastGroup (n : Nat) : (lastGroup n).toNat % 128 = n % 128 := by
  simp only [lastGroup, UInt8.toNat_ofNat']
  omega

theorem toNat_innerGroup (n : Nat) : (innerGroup n).toNat % 128 = n % 128 := by
  simp only [innerGroup, UInt8.toNat_ofNat']
  omega

/-! ## Natural numbers -/

/-- The groups of an unsigned number end with a last one. -/
theorem groups_ofNat (n : Nat) : Groups (ofNat n) := by
  induction n using Nat.strongRecOn with
  | ind n shorter =>
      rw [ofNat]
      split
      · exact .last (isLast_lastGroup n)
      · exact .inner (isLast_innerGroup n) (shorter (n / 128) (by omega))

/-- The groups of an unsigned number say that number. -/
theorem toNat_ofNat (n : Nat) : toNat (ofNat n) = n := by
  induction n using Nat.strongRecOn with
  | ind n shorter =>
      rw [ofNat]
      split
      · simp only [toNat, toNat_lastGroup]
        omega
      · rw [toNat, toNat_innerGroup, shorter (n / 128) (by omega)]
        omega

/-- Each group has room for seven bits. -/
theorem toNat_lt (groups : Bytes) : toNat groups < 128 ^ groups.length := by
  induction groups with
  | nil => exact Nat.one_pos
  | cons group groups bounded =>
      rw [toNat, List.length_cons, pow_succ]
      omega

/-- A number takes up no more groups than it has room in. -/
theorem length_ofNat_le {n k : Nat} (bounded : n < 128 ^ (k + 1)) :
    (ofNat n).length ≤ k + 1 := by
  induction k generalizing n with
  | zero =>
      rw [zero_add, pow_one] at bounded
      rw [ofNat, if_pos bounded, List.length_singleton]
  | succ k shorter =>
      rw [ofNat]
      split
      · rw [List.length_singleton]
        omega
      · rw [List.length_cons]
        have quotient : n / 128 < 128 ^ (k + 1) := by
          rw [pow_succ] at bounded
          omega
        have rest := shorter quotient
        omega

/-- No groups of a number are fewer than those that are written. -/
theorem length_ofNat_toNat_le {groups : Bytes} (complete : Groups groups) :
    (ofNat (toNat groups)).length ≤ groups.length := by
  obtain ⟨count, counted⟩ := Nat.exists_eq_succ_of_ne_zero
    (mt List.length_eq_zero_iff.mp complete.ne_nil)
  have bounded := toNat_lt groups
  rw [counted] at bounded ⊢
  exact length_ofNat_le bounded

/-- A greater number takes up at least as many groups. -/
theorem length_ofNat_mono {m n : Nat} (le : m ≤ n) : (ofNat m).length ≤ (ofNat n).length := by
  obtain ⟨count, counted⟩ := Nat.exists_eq_succ_of_ne_zero
    (mt List.length_eq_zero_iff.mp (groups_ofNat n).ne_nil)
  have bounded := toNat_lt (ofNat n)
  rw [toNat_ofNat, counted] at bounded
  rw [counted]
  exact length_ofNat_le (lt_of_le_of_lt le bounded)

/-! ## Integers -/

/-- The groups of a signed number end with a last one. -/
theorem groups_ofInt (i : Int) : Groups (ofInt i) := by
  induction i using ofInt.induct with
  | case1 i small =>
      rw [ofInt, if_pos small]
      exact .last (isLast_lastGroup _)
  | case2 i large shorter =>
      rw [ofInt, if_neg large]
      exact .inner (isLast_innerGroup _) shorter

/-- An inner group adds its seven bits below the others. -/
theorem toInt_cons {group : UInt8} {groups : Bytes} (nonempty : groups ≠ []) :
    toInt (group :: groups) = group.toNat % 128 + 128 * toInt groups := by
  cases groups with
  | nil => exact absurd rfl nonempty
  | cons next groups => rfl

/-- The groups of a signed number say that number. -/
theorem toInt_ofInt (i : Int) : toInt (ofInt i) = i := by
  induction i using ofInt.induct with
  | case1 i small =>
      rw [ofInt, if_pos small]
      have digit := toNat_lastGroup (i % 128).toNat
      rw [toInt]
      split <;> omega
  | case2 i large shorter =>
      rw [ofInt, if_neg large, toInt_cons (groups_ofInt _).ne_nil, shorter]
      have digit := toNat_innerGroup (i % 128).toNat
      omega

/-- The range of the integers that some number of groups can hold. -/
def InRange (i : Int) (k : Nat) : Prop :=
  -(64 * 128 ^ k) ≤ i ∧ i < 64 * 128 ^ k

/-- The last group also holds the sign, so a signed number has a range half as wide. -/
theorem inRange_toInt {groups : Bytes} (complete : Groups groups) :
    InRange (toInt groups) (groups.length - 1) := by
  induction complete with
  | @last group _ =>
      simp only [InRange, toInt, List.length_singleton, Nat.sub_self, pow_zero, mul_one]
      split <;> omega
  | @inner group groups _ others bounded =>
      obtain ⟨count, counted⟩ := Nat.exists_eq_succ_of_ne_zero
        (mt List.length_eq_zero_iff.mp others.ne_nil)
      rw [counted, Nat.succ_sub_one] at bounded
      rw [toInt_cons others.ne_nil, List.length_cons, counted, Nat.add_sub_cancel,
        Nat.succ_eq_add_one]
      simp only [InRange, pow_succ] at bounded ⊢
      omega

/-- A signed number takes up no more groups than it has room in. -/
theorem length_ofInt_le {i : Int} {k : Nat} (bounded : InRange i k) :
    (ofInt i).length ≤ k + 1 := by
  induction k generalizing i with
  | zero =>
      simp only [InRange, pow_zero, mul_one] at bounded
      rw [ofInt, if_pos bounded, List.length_singleton]
  | succ k shorter =>
      rw [ofInt]
      split
      · rw [List.length_singleton]
        omega
      · rw [List.length_cons]
        have quotient : InRange (i / 128) k := by
          simp only [InRange, pow_succ] at bounded ⊢
          omega
        have rest := shorter quotient
        omega

/-- There are no shorter groups that say a signed number than those that are written. -/
theorem length_ofInt_toInt_le {groups : Bytes} (complete : Groups groups) :
    (ofInt (toInt groups)).length ≤ groups.length := by
  have short := length_ofInt_le (inRange_toInt complete)
  have positive := List.length_pos_iff.mpr complete.ne_nil
  omega

/-! ## Reading groups -/

/-- Groups are read up to the last one. -/
theorem readsBack_readGroups {groups : Bytes} (complete : Groups groups) (start : Nat) :
    ∀ limit, groups.length ≤ limit → (readGroups start limit).ReadsBack groups groups := by
  induction complete with
  | @last group ends =>
      intro limit fits
      obtain ⟨limit, rfl⟩ : ∃ rest, limit = rest + 1 := Nat.exists_eq_add_one.mpr fits
      apply (Reader.readsBack_byte group).last
      rw [if_pos ends]
      exact Reader.readsBack_pure [group]
  | @inner group groups announces _ read =>
      intro limit fits
      rw [List.length_cons] at fits
      obtain ⟨limit, rfl⟩ : ∃ rest, limit = rest + 1 :=
        Nat.exists_eq_add_one.mpr (by omega)
      apply (Reader.readsBack_byte group).bind
      rw [if_neg (Bool.eq_false_iff.mp announces)]
      exact (read limit (by omega)).map (group :: ·)

/-- What is found in a successful read of groups. -/
theorem groups_of_readGroups {start limit : Nat} {cursor after : Cursor} {groups : Bytes}
    (read : readGroups start limit cursor = .ok groups after) :
    Groups groups ∧ groups.length ≤ limit ∧ cursor.rest = groups ++ after.rest ∧
      after.offset = cursor.offset + groups.length := by
  induction limit generalizing cursor groups with
  | zero => cases read
  | succ limit shorter =>
      obtain ⟨offset, rest⟩ := cursor
      obtain ⟨group, between, found, others⟩ := Reader.bind_eq_ok.mp read
      cases rest with
      | nil => cases found
      | cons head tail =>
          cases found
          by_cases ends : isLast group = true
          · rw [if_pos ends] at others
            cases others
            exact ⟨.last ends, Nat.le_add_left 1 limit, rfl, rfl⟩
          · rw [if_neg ends] at others
            obtain ⟨rest, last, further, put⟩ := Reader.bind_eq_ok.mp others
            cases put
            obtain ⟨complete, short, split, moved⟩ := shorter further
            refine ⟨.inner (Bool.eq_false_iff.mpr ends) complete, ?_, ?_, ?_⟩
            · rw [List.length_cons]
              omega
            · exact congrArg (group :: ·) split
            · rw [moved, List.length_cons]
              exact Nat.add_right_comm ..

/-- A number reader finds what was written for a number, and takes at least as many bytes
as are written for what it finds. -/
structure ReadsNumber {α : Type} (reader : Reader α) (write : α → Bytes) : Prop where
  readsBack : ∀ a, reader.ReadsBack a (write a)
  takes : ∀ {cursor after : Cursor} {a : α}, reader cursor = .ok a after →
    ∃ groups, cursor.rest = groups ++ after.rest ∧
      after.offset = cursor.offset + groups.length ∧ (write a).length ≤ groups.length

theorem length_uint32_le (n : UInt32) : (uint32 n).length ≤ 5 := by
  apply length_ofNat_le (k := 4)
  have bounded := n.toNat_lt
  omega

theorem length_int32_le (i : Int32) : (int32 i).length ≤ 5 := by
  apply length_ofInt_le (k := 4)
  have lower := i.le_toInt
  have upper := i.toInt_lt
  constructor <;> omega

theorem length_int64_le (i : Int64) : (int64 i).length ≤ 10 := by
  apply length_ofInt_le (k := 9)
  have lower := i.le_toInt
  have upper := i.toInt_lt
  constructor <;> omega

/-- An unsigned number is read from the groups that say it. -/
theorem readsNumber_uint32 : ReadsNumber readUInt32 uint32 where
  readsBack n := by
    refine .ofOffset fun start => ?_
    apply (readsBack_readGroups (groups_ofNat n.toNat) start 5 (length_uint32_le n)).last
    simp only [toNat_ofNat, n.toNat_lt, ↓reduceIte, UInt32.ofNat_toNat]
    exact Reader.readsBack_pure n
  takes := by
    intro cursor after n read
    obtain ⟨start, _, located, read⟩ := Reader.bind_eq_ok.mp read
    cases located
    obtain ⟨groups, between, found, checked⟩ := Reader.bind_eq_ok.mp read
    obtain ⟨complete, _, split, moved⟩ := groups_of_readGroups found
    by_cases small : toNat groups < UInt32.size
    · simp only [small, ↓reduceIte] at checked
      cases checked
      refine ⟨groups, split, moved, ?_⟩
      rw [uint32, UInt32.toNat_ofNat_of_lt' small]
      exact length_ofNat_toNat_le complete
    · simp only [small, ↓reduceIte] at checked
      cases checked

theorem readsNumber_int32 : ReadsNumber readInt32 int32 where
  readsBack i := by
    refine .ofOffset fun start => ?_
    apply (readsBack_readGroups (groups_ofInt i.toInt) start 5 (length_int32_le i)).last
    have fits : -0x80000000 ≤ i.toInt ∧ i.toInt < 0x80000000 := ⟨i.le_toInt, i.toInt_lt⟩
    simp only [toInt_ofInt, fits, and_self, ↓reduceIte, Int32.ofInt_toInt]
    exact Reader.readsBack_pure i
  takes := by
    intro cursor after i read
    obtain ⟨start, _, located, read⟩ := Reader.bind_eq_ok.mp read
    cases located
    obtain ⟨groups, between, found, checked⟩ := Reader.bind_eq_ok.mp read
    obtain ⟨complete, _, split, moved⟩ := groups_of_readGroups found
    by_cases fits : -0x80000000 ≤ toInt groups ∧ toInt groups < 0x80000000
    · simp only [fits, and_self, ↓reduceIte] at checked
      cases checked
      refine ⟨groups, split, moved, ?_⟩
      rw [int32, Int32.toInt_ofInt_of_le fits.1 fits.2]
      exact length_ofInt_toInt_le complete
    · simp only [fits, ↓reduceIte] at checked
      cases checked

/-- Nine groups hold fewer than 64 bits. -/
theorem inRange_of_few {groups : Bytes} (complete : Groups groups) (few : groups.length ≤ 9) :
    -0x8000000000000000 ≤ toInt groups ∧ toInt groups ≤ 0x7fffffffffffffff := by
  obtain ⟨lower, upper⟩ := inRange_toInt complete
  have power : (128 : Int) ^ (groups.length - 1) ≤ 128 ^ 8 :=
    pow_le_pow_right₀ (by norm_num) (by omega)
  constructor <;> omega

/-- A number of ten groups is cut to its range, but ten groups are also the most that are
ever written. -/
theorem length_int64_ofInt_le {groups : Bytes} (complete : Groups groups)
    (few : groups.length ≤ 10) : (int64 (Int64.ofInt (toInt groups))).length ≤ groups.length := by
  by_cases most : groups.length = 10
  · rw [most]
    exact length_int64_le _
  · obtain ⟨lower, upper⟩ := inRange_of_few complete (by omega)
    rw [int64, Int64.toInt_ofInt_of_le lower (Int.lt_add_one_of_le upper)]
    exact length_ofInt_toInt_le complete

theorem readsNumber_int64 : ReadsNumber readInt64 int64 where
  readsBack i := by
    refine .ofOffset fun start => ?_
    have read := (readsBack_readGroups (groups_ofInt i.toInt) start 10 (length_int64_le i)).map
      fun groups => Int64.ofInt (toInt groups)
    rwa [toInt_ofInt, Int64.ofInt_toInt] at read
  takes := by
    intro cursor after i read
    obtain ⟨start, _, located, read⟩ := Reader.bind_eq_ok.mp read
    cases located
    obtain ⟨groups, between, found, put⟩ := Reader.bind_eq_ok.mp read
    obtain ⟨complete, few, split, moved⟩ := groups_of_readGroups found
    cases put
    exact ⟨groups, split, moved, length_int64_ofInt_le complete few⟩

end WasmGas.Leb128

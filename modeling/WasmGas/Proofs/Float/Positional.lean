import Mathlib.Algebra.Ring.Nat
import WasmGas.Float.Shortest
import WasmGas.Proofs.Text.Decimal

/-! # Positional notation

The digits behind the point of a number in positional notation are those of the remainder, filled
up with zeros in front and without the zeros at the end (`exists_positional_eq`). Read as a
decimal, the notation gives the number back: the power of ten that the point stands for, and that
the digits are divided by, lacks just the zeros that were left out (`decimal?_positional`).
-/

namespace WasmGas

/-- The number that digits stand for. -/
def digitsValue (digits : List Char) : Nat := Nat.ofDigitChars 10 digits 0

/-- Digits behind others move those up. -/
theorem digitsValue_append (one other : List Char) :
    digitsValue (one ++ other) = 10 ^ other.length * digitsValue one + digitsValue other := by
  rw [digitsValue, Nat.ofDigitChars_append, Nat.ofDigitChars_eq_ofDigitChars_zero]
  rfl

/-- The digits of a number are worth that number. -/
theorem digitsValue_naturalText (n : Nat) : digitsValue (naturalText n) = n :=
  Nat.ofDigitChars_ten_toDigits

/-- Zeros are worth nothing. -/
theorem digitsValue_zeros (count : Nat) : digitsValue (List.replicate count '0') = 0 := by
  rw [digitsValue, Nat.ofDigitChars_replicate_zero, Nat.mul_zero]

/-- Digits are read as what they are worth. -/
theorem natural?_eq_digitsValue {digits : List Char} (some : digits ≠ [])
    (all : ∀ c ∈ digits, c.isDigit = true) : natural? digits = .some (digitsValue digits) :=
  if_pos ⟨some, List.all_eq_true.mpr all⟩

/-- Zeros at the end count as a power of ten. -/
theorem exists_stripped (digits : List Char) :
    ∃ kept zeros, kept = (digits.reverse.dropWhile (· == '0')).reverse ∧
      digits = kept ++ List.replicate zeros '0' := by
  have split := congrArg List.reverse
    (List.takeWhile_append_dropWhile (p := (· == '0')) (l := digits.reverse))
  rw [List.reverse_append, List.reverse_reverse] at split
  have zeros : ∀ c ∈ (digits.reverse.takeWhile (· == '0')).reverse, c = '0' := by
    intro c listed
    have zero := List.mem_takeWhile_imp (List.mem_reverse.mp listed)
    exact eq_of_beq zero
  exact ⟨_, _, rfl, by rw [← List.eq_replicate_of_mem zeros, split]⟩

/-- The remainder, written with as many digits as there are places. -/
theorem length_padded {rest places : Nat} (below : rest < 10 ^ places) :
    (List.replicate (places - (naturalText rest).length) '0' ++ naturalText rest).length =
      max places 1 := by
  have long : (naturalText rest).length ≤ max places 1 := by
    rw [naturalText, Nat.length_toDigits_le_iff (by decide) (by omega)]
    exact lt_of_lt_of_le below (Nat.pow_le_pow_right (by decide) (Nat.le_max_left places 1))
  have some := List.length_pos_iff.mpr (naturalText_ne_nil rest)
  rw [List.length_append, List.length_replicate]
  omega

/-- The digits on both sides of the point. -/
theorem exists_positional_eq (n places : Nat) :
    ∃ fraction, fraction.length ≤ places ∧ (∀ c ∈ fraction, c.isDigit = true) ∧
      digitsValue fraction * 10 ^ (places - fraction.length) = n % 10 ^ places ∧
      positional n places =
        if fraction = [] then naturalText (n / 10 ^ places)
        else naturalText (n / 10 ^ places) ++ '.' :: fraction := by
  have below : n % 10 ^ places < 10 ^ places := Nat.mod_lt n (Nat.pow_pos (by decide))
  obtain ⟨padded, filled⟩ : ∃ padded, padded = List.replicate
      (places - (naturalText (n % 10 ^ places)).length) '0' ++ naturalText (n % 10 ^ places) :=
    ⟨_, rfl⟩
  have value : digitsValue padded = n % 10 ^ places := by
    rw [filled, digitsValue_append, digitsValue_zeros, digitsValue_naturalText]
    omega
  have digits : ∀ c ∈ padded, c.isDigit = true := by
    intro c listed
    rw [filled] at listed
    rcases List.mem_append.mp listed with zero | digit
    · rw [(List.mem_replicate.mp zero).2]
      rfl
    · exact isDigit_of_mem_naturalText digit
  obtain ⟨fraction, zeros, stripped, split⟩ := exists_stripped padded
  have written : positional n places =
      if fraction = [] then naturalText (n / 10 ^ places)
      else naturalText (n / 10 ^ places) ++ '.' :: fraction := by
    rw [stripped, filled]
    rfl
  have all : ∀ c ∈ fraction, c.isDigit = true := by
    intro c listed
    rw [split] at digits
    exact digits c (List.mem_append_left _ listed)
  rcases Nat.eq_zero_or_pos places with rfl | some
  · -- Without places the remainder is the digit zero, and that is left out.
    have nothing : n % 10 ^ 0 = 0 := Nat.mod_one n
    have bare : fraction = [] := by
      rw [stripped, filled, nothing]
      rfl
    refine ⟨fraction, ?_, all, ?_, written⟩
    · rw [bare]
      exact le_rfl
    · rw [bare, nothing]
      rfl
  · have long := length_padded below
    rw [← filled, split, List.length_append, List.length_replicate] at long
    have left : places - fraction.length = zeros := by omega
    refine ⟨fraction, by omega, all, ?_, written⟩
    rw [left, ← value, split, digitsValue_append, digitsValue_zeros, List.length_replicate,
      Nat.mul_comm, Nat.add_zero]

/-- A point moves no digit, it only counts the places behind it. -/
theorem decimal?_point {whole fraction : List Char} (some : whole ≠ [])
    (wholeDigits : ∀ c ∈ whole, c.isDigit = true)
    (fractionDigits : ∀ c ∈ fraction, c.isDigit = true) :
    decimal? (whole ++ '.' :: fraction) =
      .some (digitsValue (whole ++ fraction), -(fraction.length : Int)) := by
  have front : (whole ++ '.' :: fraction).takeWhile Char.isDigit = whole := by
    rw [List.takeWhile_append_of_pos wholeDigits]
    exact List.append_nil whole
  have behind : (whole ++ '.' :: fraction).dropWhile Char.isDigit = '.' :: fraction := by
    rw [List.dropWhile_append_of_pos wholeDigits]
    rfl
  have all : fraction.takeWhile Char.isDigit = fraction :=
    List.takeWhile_eq_self_iff.mpr fractionDigits
  have nothing : fraction.dropWhile Char.isDigit = [] :=
    List.dropWhile_eq_nil_iff.mpr fractionDigits
  have digits : natural? (whole ++ fraction) = .some (digitsValue (whole ++ fraction)) := by
    apply natural?_eq_digitsValue (List.append_ne_nil_of_left_ne_nil some fraction)
    exact List.forall_mem_append.mpr ⟨wholeDigits, fractionDigits⟩
  simp only [decimal?, front, behind, all, nothing, digits, exponentPart?, Int.zero_sub]

/-- **Positional notation is read back.** -/
theorem decimal?_positional (n places : Nat) :
    ∃ digits behind : Nat, decimal? (positional n places) = some (digits, -(behind : Int)) ∧
      behind ≤ places ∧ digits * 10 ^ (places - behind) = n := by
  obtain ⟨fraction, few, all, value, written⟩ := exists_positional_eq n places
  have parts := Nat.div_add_mod n (10 ^ places)
  by_cases whole : fraction = []
  · refine ⟨n / 10 ^ places, 0, ?_, Nat.zero_le places, ?_⟩
    · rw [written, if_pos whole, decimal?_naturalText]
      rfl
    · rw [whole] at value
      have exact : n % 10 ^ places = 0 := by
        rw [← value]
        exact Nat.zero_mul _
      rw [Nat.sub_zero, Nat.mul_comm]
      omega
  · refine ⟨digitsValue (naturalText (n / 10 ^ places) ++ fraction), fraction.length, ?_, few, ?_⟩
    · rw [written, if_neg whole]
      exact decimal?_point (naturalText_ne_nil _) (fun _ => isDigit_of_mem_naturalText) all
    · rw [digitsValue_append, digitsValue_naturalText, Nat.add_mul, value, Nat.mul_right_comm,
        ← Nat.pow_add, Nat.add_sub_cancel' few]
      exact parts

/-- Positional notation begins with a digit, so with no sign. -/
theorem splitSign_positional (n places : Nat) :
    splitSign (positional n places) = (false, positional n places) := by
  obtain ⟨fraction, _, _, _, written⟩ := exists_positional_eq n places
  obtain ⟨head, tail, digits, notPlus, notMinus⟩ := naturalText_eq_cons (n / 10 ^ places)
  rw [written, digits]
  by_cases whole : fraction = []
  · rw [if_pos whole]
    exact splitSign_of_ne notPlus notMinus tail
  · rw [if_neg whole]
    exact splitSign_of_ne notPlus notMinus (tail ++ '.' :: fraction)

end WasmGas

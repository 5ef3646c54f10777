import Mathlib.Data.List.TakeWhile
import WasmGas.Float.Nearest
import WasmGas.Text.Integer

/-! # Numbers in decimal digits

The decimal digits of a natural number stand for that number wherever a number is read: as
digits alone (`natural?_naturalText`), as an integer of some range, and as a float, which
is the one nearest to the number (`FloatFormat.ofText?_naturalText`).
-/

namespace WasmGas

/-- A number is written in digits. -/
theorem isDigit_of_mem_naturalText {n : Nat} {c : Char} (listed : c ∈ naturalText n) :
    c.isDigit = true :=
  Nat.isDigit_of_mem_toDigits (by decide) (by decide) listed

/-- A number has at least one digit. -/
theorem naturalText_ne_nil (n : Nat) : naturalText n ≠ [] := by
  rw [naturalText, Nat.toDigits_eq_if (by decide)]
  by_cases single : n < 10
  · rw [if_pos single]
    exact List.cons_ne_nil _ _
  · rw [if_neg single]
    exact List.append_ne_nil_of_right_ne_nil _ (List.cons_ne_nil _ _)

/-- A number begins with a digit. -/
theorem naturalText_eq_digit_cons (n : Nat) :
    ∃ head tail, naturalText n = head :: tail ∧ head.isDigit = true := by
  obtain ⟨head, tail, digits⟩ := List.exists_cons_of_ne_nil (naturalText_ne_nil n)
  refine ⟨head, tail, digits, isDigit_of_mem_naturalText (n := n) ?_⟩
  rw [digits]
  exact List.mem_cons_self

/-- Digits begin with a digit, so with no sign. -/
theorem naturalText_eq_cons (n : Nat) :
    ∃ head tail, naturalText n = head :: tail ∧ head ≠ '+' ∧ head ≠ '-' := by
  obtain ⟨head, tail, digits, digit⟩ := naturalText_eq_digit_cons n
  refine ⟨head, tail, digits, ?_, ?_⟩
  · rintro rfl
    exact absurd digit (by decide)
  · rintro rfl
    exact absurd digit (by decide)

/-- A number is read back from its digits. -/
theorem natural?_naturalText (n : Nat) : natural? (naturalText n) = some n := by
  have digits : (naturalText n).all Char.isDigit = true :=
    List.all_eq_true.mpr fun _ listed => isDigit_of_mem_naturalText listed
  rw [natural?, if_pos ⟨naturalText_ne_nil n, digits⟩, naturalText, Nat.ofDigitChars_ten_toDigits]

/-- A number that is within the bound is read back from its digits. -/
theorem naturalBelow?_naturalText {bound n : Nat} (below : n < bound) :
    naturalBelow? bound (naturalText n) = some n := by
  have value := natural?_naturalText n
  obtain ⟨head, tail, digits, notPlus, _⟩ := naturalText_eq_cons n
  rw [digits] at value ⊢
  unfold naturalBelow?
  split
  · rename_i rest same
    cases same
    exact absurd rfl notPlus
  · simp only [value, Option.filter_some, below, decide_true, ↓reduceIte]

/-- A number without a sign is read back as a signed one. -/
theorem integerWithin?_naturalText {bound n : Nat} (below : n < bound) :
    integerWithin? bound (naturalText n) = some (n : Int) := by
  have value := natural?_naturalText n
  obtain ⟨head, tail, digits, notPlus, notMinus⟩ := naturalText_eq_cons n
  have inside : -(bound : Int) ≤ (n : Int) ∧ (n : Int) < bound := by omega
  rw [digits] at value ⊢
  unfold integerWithin?
  split
  · rename_i rest same
    cases same
    exact absurd rfl notPlus
  · rename_i rest same
    cases same
    exact absurd rfl notMinus
  · simp only [value, Option.map_some, Option.filter_some, Int.ofNat_eq_natCast, inside.1,
      inside.2, decide_true, Bool.and_self, ↓reduceIte]

/-- The text of an integer in the range that it is read in. -/
theorem integerWithin?_integerText {bound : Nat} {i : Int} (low : -(bound : Int) ≤ i)
    (high : i < bound) : integerWithin? bound (integerText i) = some i := by
  by_cases negative : i < 0
  · have value : -((i.natAbs : Nat) : Int) = i := by omega
    rw [integerText, if_pos negative, integerWithin?]
    simp only [natural?_naturalText, Option.map_some, Int.ofNat_eq_natCast, value,
      Option.filter_some, low, high, decide_true, Bool.and_self, ↓reduceIte]
  · have value : ((i.natAbs : Nat) : Int) = i := by omega
    rw [integerText, if_neg negative, integerWithin?_naturalText (by omega), value]

/-- A number without a point is a decimal of no places. -/
theorem decimal?_naturalText (n : Nat) : decimal? (naturalText n) = some (n, 0) := by
  have all : ∀ c ∈ naturalText n, c.isDigit = true := fun _ => isDigit_of_mem_naturalText
  have whole : (naturalText n).takeWhile Char.isDigit = naturalText n :=
    List.takeWhile_eq_self_iff.mpr all
  have nothing : (naturalText n).dropWhile Char.isDigit = [] :=
    List.dropWhile_eq_nil_iff.mpr all
  simp only [decimal?, whole, nothing, List.append_nil, natural?_naturalText, exponentPart?,
    List.length_nil]
  rfl

/-- Where there is no sign none is taken. -/
theorem splitSign_of_ne {head : Char} (notPlus : head ≠ '+') (notMinus : head ≠ '-')
    (tail : List Char) : splitSign (head :: tail) = (false, head :: tail) := by
  unfold splitSign
  split
  · rename_i rest same
    cases same
    exact absurd rfl notMinus
  · rename_i rest same
    cases same
    exact absurd rfl notPlus
  · rfl

/-- A number without a point is read as the float nearest to it. -/
theorem FloatFormat.ofText?_naturalText (format : FloatFormat) (n : Nat) :
    format.ofText? (naturalText n) = some (format.nearestDecimal n 0) := by
  have unsigned : splitSign (naturalText n) = (false, naturalText n) := by
    obtain ⟨head, tail, digits, notPlus, notMinus⟩ := naturalText_eq_cons n
    rw [digits]
    exact splitSign_of_ne notPlus notMinus tail
  simp only [ofText?, unsigned, decimal?_naturalText, Option.map_some, withSign,
    Bool.false_eq_true, ↓reduceIte]

end WasmGas

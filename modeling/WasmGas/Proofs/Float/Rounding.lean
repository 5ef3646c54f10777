import Mathlib.Algebra.Order.Field.Power
import Mathlib.Data.Rat.Lemmas
import Mathlib.Tactic.FieldSimp
import Mathlib.Tactic.Linarith
import Mathlib.Tactic.Positivity
import Mathlib.Tactic.Ring
import WasmGas.Float.Nearest

/-! # Rounding to the nearest float

A quotient is rounded to the nearest whole number, a tie going to the even one, and no other
number is nearest in that sense (`RoundsTo.unique`). A float is a significand and an exponent, of
which one may not be smaller than necessary (`FloatFormat.Canonical`). Around each float lies the
interval of what is rounded to it (`FloatFormat.InInterval`); below a power of two the interval is
narrower, since there the floats lie closer together. Whatever is in the interval of a float has
the pattern of that float for its nearest one (`FloatFormat.nearest_eq_pattern`).
-/

namespace WasmGas

/-! ## Quotients -/

/-- A whole number is nearest to a number, and the even one if two are. -/
structure RoundsTo (q : ℚ) (n : ℕ) : Prop where
  low : (n : ℚ) - 1 / 2 ≤ q
  high : q ≤ n + 1 / 2
  even : q = n - 1 / 2 ∨ q = n + 1 / 2 → n % 2 = 0

/-- A number rounds to one whole number only. -/
theorem RoundsTo.unique {q : ℚ} {m n : ℕ} (one : RoundsTo q m) (other : RoundsTo q n) : m = n := by
  -- Two of them would be neighbours with the number halfway between, and one of the two is odd.
  wlog less : m < n generalizing m n
  · rcases Nat.lt_trichotomy m n with below | same | above
    · exact this one other below
    · exact same
    · exact (this other one above).symm
  have apart : (m : ℚ) + 1 ≤ n := by exact_mod_cast less
  have below := one.high
  have above := other.low
  have halfway : q = m + 1 / 2 := by linarith
  have next : (n : ℚ) = m + 1 := by linarith
  have neighbour : n = m + 1 := by exact_mod_cast next
  have evenOne := one.even (Or.inr halfway)
  have evenOther := other.even (Or.inl (by linarith))
  omega

/-- How a quotient rounds is settled by comparing products. -/
theorem roundsTo_div_iff {numerator denominator n : ℕ} (positive : 0 < denominator) :
    RoundsTo (numerator / denominator) n ↔
      2 * (n * denominator) ≤ 2 * numerator + denominator ∧
        2 * numerator ≤ 2 * (n * denominator) + denominator ∧
        (2 * (n * denominator) = 2 * numerator + denominator ∨
          2 * numerator = 2 * (n * denominator) + denominator → n % 2 = 0) := by
  have divisor : (0 : ℚ) < denominator := by exact_mod_cast positive
  have low : (n : ℚ) - 1 / 2 ≤ numerator / denominator ↔
      2 * (n * denominator) ≤ 2 * numerator + denominator := by
    rw [le_div_iff₀ divisor, ← Nat.cast_le (α := ℚ)]
    push_cast
    constructor <;> intro below <;> linarith
  have high : (numerator : ℚ) / denominator ≤ n + 1 / 2 ↔
      2 * numerator ≤ 2 * (n * denominator) + denominator := by
    rw [div_le_iff₀ divisor, ← Nat.cast_le (α := ℚ)]
    push_cast
    constructor <;> intro above <;> linarith
  have lowTie : (numerator : ℚ) / denominator = n - 1 / 2 ↔
      2 * (n * denominator) = 2 * numerator + denominator := by
    rw [div_eq_iff divisor.ne', ← Nat.cast_inj (R := ℚ)]
    push_cast
    constructor <;> intro tie <;> linarith
  have highTie : (numerator : ℚ) / denominator = n + 1 / 2 ↔
      2 * numerator = 2 * (n * denominator) + denominator := by
    rw [div_eq_iff divisor.ne', ← Nat.cast_inj (R := ℚ)]
    push_cast
    constructor <;> intro tie <;> linarith
  rw [← low, ← high, ← lowTie, ← highTie]
  exact ⟨fun rounds => ⟨rounds.low, rounds.high, rounds.even⟩,
    fun ⟨below, above, even⟩ => ⟨below, above, even⟩⟩

/-- The rounding that is computed is to the nearest, ties to even. -/
theorem roundsTo_roundHalfEven (numerator : ℕ) {denominator : ℕ} (positive : 0 < denominator) :
    RoundsTo (numerator / denominator) (roundHalfEven numerator denominator) := by
  rw [roundsTo_div_iff positive]
  have parts := Nat.div_add_mod numerator denominator
  have short := Nat.mod_lt numerator positive
  rw [Nat.mul_comm] at parts
  unfold roundHalfEven
  generalize numerator / denominator = whole at parts ⊢
  generalize numerator % denominator = rest at parts short ⊢
  by_cases down : 2 * rest < denominator
  · simp only [down, ↓reduceIte]
    omega
  by_cases up : denominator < 2 * rest
  · simp only [down, up, ↓reduceIte, Nat.add_mul]
    omega
  · simp only [down, up, ↓reduceIte, Nat.add_mul]
    rcases Nat.mod_two_eq_zero_or_one whole with even | odd
    · rw [even]
      omega
    · rw [odd]
      omega

/-! ## Powers of two -/

/-- A power of two, as a quotient of whole ones. -/
theorem two_zpow_eq_div (exponent : ℤ) :
    (2 : ℚ) ^ exponent = (2 ^ exponent.toNat : ℕ) / (2 ^ (-exponent).toNat : ℕ) := by
  rcases Int.le_total 0 exponent with up | down
  · obtain ⟨n, rfl⟩ := Int.eq_ofNat_of_zero_le up
    have none : (-(n : ℤ)).toNat = 0 := by omega
    rw [none, Int.toNat_natCast, zpow_natCast, pow_zero, Nat.cast_one, div_one, Nat.cast_pow,
      Nat.cast_ofNat]
  · obtain ⟨n, same⟩ := Int.eq_ofNat_of_zero_le (Int.neg_nonneg_of_nonpos down)
    have none : exponent.toNat = 0 := by omega
    have exact : exponent = -(n : ℤ) := by omega
    rw [none, same, exact, Int.toNat_natCast, zpow_neg, zpow_natCast, pow_zero, Nat.cast_one,
      one_div, Nat.cast_pow, Nat.cast_ofNat]

theorem two_zpow_le_iff {k l : ℤ} : (2 : ℚ) ^ k ≤ 2 ^ l ↔ k ≤ l :=
  zpow_le_zpow_iff_right₀ one_lt_two

/-- Whether a power of two is above a quotient can be told without dividing. -/
theorem two_zpow_le_div_iff {exponent : ℤ} {numerator denominator : ℕ}
    (positive : 0 < denominator) : (2 : ℚ) ^ exponent ≤ numerator / denominator ↔
      denominator * 2 ^ exponent.toNat ≤ numerator * 2 ^ (-exponent).toNat := by
  have divisor : (0 : ℚ) < denominator := by exact_mod_cast positive
  have power : (0 : ℚ) < (2 ^ (-exponent).toNat : ℕ) := by positivity
  rw [two_zpow_eq_div, div_le_div_iff₀ power divisor, mul_comm, ← Nat.cast_mul, ← Nat.cast_mul,
    Nat.cast_le]

/-- The exponent is the greatest of those whose power of two is not above the quotient. -/
theorem floorLog2_bounds {numerator denominator : ℕ} (some : 0 < numerator)
    (positive : 0 < denominator) :
    (2 : ℚ) ^ floorLog2 numerator denominator ≤ numerator / denominator ∧
      (numerator / denominator : ℚ) < 2 ^ (floorLog2 numerator denominator + 1) := by
  have divisor : (0 : ℚ) < denominator := by exact_mod_cast positive
  have two : (2 : ℚ) ≠ 0 := two_ne_zero
  have atLeast : (2 : ℚ) ^ (numerator.log2 : ℤ) ≤ numerator := by
    exact_mod_cast Nat.log2_self_le some.ne'
  have below : (numerator : ℚ) < 2 ^ (numerator.log2 + 1 : ℤ) := by
    exact_mod_cast Nat.lt_log2_self
  have atLeast' : (2 : ℚ) ^ (denominator.log2 : ℤ) ≤ denominator := by
    exact_mod_cast Nat.log2_self_le positive.ne'
  have below' : (denominator : ℚ) < 2 ^ (denominator.log2 + 1 : ℤ) := by
    exact_mod_cast Nat.lt_log2_self
  -- The difference of the logarithms is right or one too great.
  obtain ⟨guess, guessed⟩ : ∃ guess : ℤ, guess = numerator.log2 - denominator.log2 := ⟨_, rfl⟩
  have lower : (2 : ℚ) ^ (guess - 1) ≤ numerator / denominator := by
    rw [le_div_iff₀ divisor]
    calc (2 : ℚ) ^ (guess - 1) * denominator
        ≤ 2 ^ (guess - 1) * 2 ^ (denominator.log2 + 1 : ℤ) := by gcongr
      _ = 2 ^ (numerator.log2 : ℤ) := by
          rw [← zpow_add₀ two, guessed]
          congr 1
          omega
      _ ≤ numerator := atLeast
  have upper : (numerator / denominator : ℚ) < 2 ^ (guess + 1) := by
    rw [div_lt_iff₀ divisor]
    calc (numerator : ℚ) < 2 ^ (numerator.log2 + 1 : ℤ) := below
      _ = 2 ^ (guess + 1) * 2 ^ (denominator.log2 : ℤ) := by
          rw [← zpow_add₀ two, guessed]
          congr 1
          omega
      _ ≤ 2 ^ (guess + 1) * denominator := by gcongr
  unfold floorLog2
  simp only [← guessed, Nat.pow_eq, ← two_zpow_le_div_iff positive]
  by_cases reached : (2 : ℚ) ^ guess ≤ numerator / denominator
  · simp only [reached, decide_true, ↓reduceIte, true_and]
    exact upper
  · simp only [reached, decide_false, Bool.false_eq_true, ↓reduceIte, sub_add_cancel]
    exact ⟨lower, not_le.mp reached⟩

/-- The logarithm that is computed is the greatest exponent of two below a quotient. -/
theorem le_floorLog2_iff {numerator denominator : ℕ} (some : 0 < numerator)
    (positive : 0 < denominator) {exponent : ℤ} :
    exponent ≤ floorLog2 numerator denominator ↔ (2 : ℚ) ^ exponent ≤ numerator / denominator := by
  obtain ⟨reached, missed⟩ := floorLog2_bounds some positive
  constructor
  · intro below
    exact (two_zpow_le_iff.mpr below).trans reached
  · intro inside
    by_contra above
    have next : floorLog2 numerator denominator + 1 ≤ exponent := by omega
    exact absurd ((two_zpow_le_iff.mpr next).trans inside) (not_le.mpr missed)

/-! ## Floats -/

namespace FloatFormat

variable (format : FloatFormat)

/-- The significands and exponents of floats. A significand that is not full has the least
exponent. -/
structure Canonical (significand : ℕ) (exponent : ℤ) : Prop where
  least_le : format.leastExponent ≤ exponent
  significand_lt : significand < 2 * format.fullSignificand
  full : format.leastExponent < exponent → format.fullSignificand ≤ significand

/-- The pattern of the float with a significand and an exponent. -/
def pattern (significand : ℕ) (exponent : ℤ) : ℕ :=
  (exponent - format.leastExponent).toNat * format.fullSignificand + significand

/-- How far down the interval of a significand goes, in units of the significand. The next float
below a full one is at half the distance. -/
def reach (significand : ℕ) : ℚ := if significand = format.fullSignificand then 1 / 4 else 1 / 2

/-- A number, in units of the significand, that is rounded to it. The ends of the interval belong to
even significands. -/
structure InInterval (q : ℚ) (significand : ℕ) : Prop where
  low : significand - format.reach significand ≤ q
  high : q ≤ significand + 1 / 2
  even : q = significand - format.reach significand ∨ q = significand + 1 / 2 →
    significand % 2 = 0

variable {format}

/-- No float reaches farther than half a step. -/
theorem reach_le (significand : ℕ) : format.reach significand ≤ 1 / 2 := by
  unfold reach
  split
  · norm_num
  · exact le_rfl

/-- What is rounded to a float is rounded to its significand. -/
theorem InInterval.roundsTo {q : ℚ} {significand : ℕ} (inside : format.InInterval q significand) :
    RoundsTo q significand where
  low := by linarith [inside.low, format.reach_le significand]
  high := inside.high
  even := by
    rintro (low | high)
    · -- The end is that of the interval, for no interval reaches further down.
      apply inside.even
      left
      linarith [inside.low, format.reach_le significand]
    · exact inside.even (Or.inr high)

/-- The significand of the nearest float, if its exponent is known. -/
theorem nearest_eq_of_roundsTo {numerator denominator significand : ℕ} {exponent : ℤ}
    (some : 0 < numerator) (positive : 0 < denominator)
    (chosen : exponent =
      max format.leastExponent (floorLog2 numerator denominator - format.fractionBits))
    (rounds : RoundsTo (numerator / denominator / 2 ^ exponent) significand) :
    format.nearest numerator denominator =
      min format.infinityBits (format.pattern significand exponent) := by
  have scaled : ((numerator * 2 ^ (-exponent).toNat : ℕ) : ℚ) /
      (denominator * 2 ^ exponent.toNat : ℕ) = numerator / denominator / 2 ^ exponent := by
    rw [two_zpow_eq_div, Nat.cast_mul, Nat.cast_mul]
    field_simp
  have divisor : 0 < denominator * 2 ^ exponent.toNat := by positivity
  have rounded := roundsTo_roundHalfEven (numerator * 2 ^ (-exponent).toNat) divisor
  rw [scaled] at rounded
  unfold nearest
  rw [if_neg some.ne']
  simp only [← chosen, Nat.pow_eq, rounded.unique rounds, pattern]

theorem fullSignificand_pos (format : FloatFormat) : 0 < format.fullSignificand :=
  Nat.pow_pos two_pos

/-- A full significand is the power of two at its top bit. -/
theorem two_zpow_add_fractionBits (format : FloatFormat) (exponent : ℤ) :
    (2 : ℚ) ^ (exponent + format.fractionBits) = format.fullSignificand * 2 ^ exponent := by
  rw [zpow_add₀ two_ne_zero, zpow_natCast, mul_comm, fullSignificand, Nat.pow_eq, Nat.cast_pow,
    Nat.cast_ofNat]

/-- The exponent of a quotient, by what the quotient comes to in units of the significand. -/
theorem le_floorLog2_sub_iff (format : FloatFormat) {numerator denominator : ℕ} {exponent : ℤ}
    (some : 0 < numerator) (positive : 0 < denominator) :
    exponent ≤ floorLog2 numerator denominator - format.fractionBits ↔
      (format.fullSignificand : ℚ) ≤ numerator / denominator / 2 ^ exponent := by
  have unit : (0 : ℚ) < 2 ^ exponent := by positivity
  rw [le_sub_iff_add_le, le_floorLog2_iff some positive, two_zpow_add_fractionBits,
    le_div_iff₀ unit]

/-- A float just below a power of two has a smaller exponent, and is rounded up to the power. -/
theorem pattern_double {exponent : ℤ} (above : format.leastExponent < exponent) :
    format.pattern (2 * format.fullSignificand) (exponent - 1) =
      format.pattern format.fullSignificand exponent := by
  have next : (exponent - format.leastExponent).toNat =
      (exponent - 1 - format.leastExponent).toNat + 1 := by omega
  rw [pattern, pattern, next, Nat.add_mul]
  omega

/-- **The nearest float of what is in its interval.** -/
theorem nearest_eq_pattern {numerator denominator significand : ℕ} {exponent : ℤ}
    (some : 0 < numerator) (positive : 0 < denominator)
    (canonical : format.Canonical significand exponent)
    (inside : format.InInterval (numerator / denominator / 2 ^ exponent) significand) :
    format.nearest numerator denominator =
      min format.infinityBits (format.pattern significand exponent) := by
  have double : (2 : ℚ) ^ (exponent + 1) = 2 ^ exponent * 2 := zpow_add_one₀ two_ne_zero exponent
  have half : (2 : ℚ) ^ exponent = 2 ^ (exponent - 1) * 2 := by
    rw [← zpow_add_one₀ two_ne_zero, sub_add_cancel]
  have one : (1 : ℚ) ≤ format.fullSignificand := by exact_mod_cast format.fullSignificand_pos
  have fits : (significand : ℚ) + 1 ≤ 2 * format.fullSignificand := by
    exact_mod_cast canonical.significand_lt
  have notMore : floorLog2 numerator denominator - format.fractionBits ≤ exponent := by
    by_contra more
    have next : exponent + 1 ≤ floorLog2 numerator denominator - format.fractionBits := by omega
    rw [le_floorLog2_sub_iff format some positive, double, ← div_div, le_div_iff₀ two_pos] at next
    linarith [inside.high]
  by_cases least : exponent = format.leastExponent
  · exact nearest_eq_of_roundsTo some positive (by omega) inside.roundsTo
  have above : format.leastExponent < exponent := by
    have atLeast := canonical.least_le
    omega
  by_cases whole : (format.fullSignificand : ℚ) ≤ numerator / denominator / 2 ^ exponent
  · have reached := (le_floorLog2_sub_iff format some positive).mpr whole
    exact nearest_eq_of_roundsTo some positive (by omega) inside.roundsTo
  · -- Only the interval of a full significand reaches below the power of two.
    have bare : significand = format.fullSignificand := by
      by_contra other
      have full := canonical.full above
      have beyond : (format.fullSignificand : ℚ) + 1 ≤ significand := by
        exact_mod_cast (show format.fullSignificand + 1 ≤ significand by omega)
      have low := inside.low
      have far := format.reach_le significand
      linarith
    have low := inside.low
    rw [bare, reach, if_pos rfl] at low
    have finer : (numerator : ℚ) / denominator / 2 ^ (exponent - 1) =
        2 * (numerator / denominator / 2 ^ exponent) := by
      rw [half]
      field_simp
    have chosen : exponent - 1 ≤ floorLog2 numerator denominator - format.fractionBits := by
      rw [le_floorLog2_sub_iff format some positive, finer]
      linarith
    have missed := mt (le_floorLog2_sub_iff format some positive).mp whole
    rw [bare, ← pattern_double above]
    apply nearest_eq_of_roundsTo some positive (by omega)
    rw [finer]
    constructor
    · push_cast
      linarith
    · push_cast
      linarith
    · intro _
      exact Nat.mul_mod_right 2 _

end FloatFormat

end WasmGas

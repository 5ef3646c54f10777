import WasmGas.Proofs.Float.ReadBack

/-! # The nearest of all floats

A float is the nearest one to a number if no finite float of the format is closer, and if another
one is as close then its pattern is the even one (`FloatFormat.NearestEven`). To round a number is
to round it to a whole multiple of a power of two: the one at which the number has a full
significand, or the least one (`FloatFormat.Rounded`). Of the finite floats those with smaller
exponents all lie below such a number, and the others are whole multiples as well
(`FloatFormat.Rounded.multiple_or_below`). So the nearest whole multiple is the nearest float
(`FloatFormat.Rounded.nearestEven`), and for the decimal digits of a whole number it is the float
that they are read as (`FloatFormat.exists_nearestEven`).
-/

namespace WasmGas

/-! ## Whole numbers -/

namespace RoundsTo

variable {q : ℚ} {n : ℕ}

/-- What a number rounds to is at most a half away. -/
theorem abs_sub_le_half (rounds : RoundsTo q n) : |q - n| ≤ 1 / 2 :=
  abs_le.mpr ⟨by linarith [rounds.low], by linarith [rounds.high]⟩

/-- Any other whole number is at least a half away. -/
theorem half_le_abs_sub (rounds : RoundsTo q n) {m : ℤ} (other : m ≠ n) : 1 / 2 ≤ |q - m| := by
  have apart : (1 : ℚ) ≤ |(m : ℚ) - n| := by
    exact_mod_cast Int.one_le_abs (sub_ne_zero.mpr other)
  have between := abs_sub_le (m : ℚ) q n
  rw [abs_sub_comm (m : ℚ) q] at between
  linarith [rounds.abs_sub_le_half]

/-- No whole number is closer. -/
theorem closest (rounds : RoundsTo q n) (m : ℤ) : |q - n| ≤ |q - m| := by
  by_cases same : m = n
  · rw [same, Int.cast_natCast]
  · exact rounds.abs_sub_le_half.trans (rounds.half_le_abs_sub same)

/-- If another whole number is as close then the one is even. -/
theorem even_of_abs_sub_eq (rounds : RoundsTo q n) {m : ℤ} (other : m ≠ n)
    (tie : |q - m| = |q - n|) : n % 2 = 0 := by
  have far := rounds.half_le_abs_sub other
  rw [tie] at far
  have half := le_antisymm rounds.abs_sub_le_half far
  apply rounds.even
  rcases (abs_eq one_half_pos.le).mp half with above | below
  · right
    linarith
  · left
    linarith

end RoundsTo

/-- Every number rounds to some whole one. -/
theorem exists_roundsTo {q : ℚ} (nonneg : 0 ≤ q) : ∃ n, RoundsTo q n := by
  have rounds := roundsTo_roundHalfEven q.num.toNat q.den_pos
  have whole : (q.num.toNat : ℚ) = q.num := by
    exact_mod_cast Int.toNat_of_nonneg (Rat.num_nonneg.mpr nonneg)
  rw [whole, Rat.num_div_den] at rounds
  exact ⟨_, rounds⟩

/-! ## Numbers of floats -/

/-- The number that a float stands for, if it is a finite one. -/
def FloatValue.number? : FloatValue → Option ℚ
  | .finite negative significand exponent =>
    some ((if negative then -(significand : ℚ) else significand) * 2 ^ exponent)
  | _ => none

namespace FloatFormat

/-- A pattern of a finite float without a sign that no other one is preferred to: none is closer to
the number, and if one is as close then this pattern is even. The last bit of a pattern is that of
its significand. -/
structure NearestEven (format : FloatFormat) (q : ℚ) (bits : ℕ) (number : ℚ) : Prop where
  finite : ∃ significand exponent, format.value bits = .finite false significand exponent ∧
    number = significand * 2 ^ exponent
  closest : ∀ other n, (format.value other).number? = some n → |q - number| ≤ |q - n|
  even : ∀ other n, (format.value other).number? = some n → n ≠ number →
    |q - n| = |q - number| → bits % 2 = 0

variable {format : FloatFormat}

/-- The float nearest to a number has a value. -/
theorem NearestEven.number?_eq {q number : ℚ} {bits : ℕ}
    (nearest : format.NearestEven q bits number) :
    (format.value bits).number? = some number := by
  obtain ⟨significand, exponent, value, rfl⟩ := nearest.finite
  rw [value]
  rfl

/-- A greater number has no smaller nearest float. -/
theorem NearestEven.le_of_lt {q r number other : ℚ} {bits more : ℕ}
    (nearest : format.NearestEven q bits number) (further : format.NearestEven r more other)
    (less : q < r) : number ≤ other := by
  by_contra above
  have crossed := not_le.mp above
  have one := nearest.closest more other further.number?_eq
  have two := further.closest bits number nearest.number?_eq
  -- Both numbers would have to lie on their own side of the middle.
  have low : (number + other) / 2 ≤ q := by
    by_contra small
    have small := not_le.mp small
    rw [abs_sub_comm q number, abs_of_pos (by linarith)] at one
    rcases abs_cases (q - other) with ⟨same, _⟩ | ⟨same, _⟩ <;> linarith
  have high : r ≤ (number + other) / 2 := by
    by_contra large
    have large := not_le.mp large
    rw [abs_of_pos (by linarith)] at two
    rcases abs_cases (r - number) with ⟨same, _⟩ | ⟨same, _⟩ <;> linarith
  linarith

/-- A finite float is a whole multiple of a power of two. -/
theorem exists_multiple_of_number? {bits : ℕ} {number : ℚ}
    (stands : (format.value bits).number? = some number) :
    ∃ (multiple exponent : ℤ), number = multiple * 2 ^ exponent ∧
      multiple < 2 * format.fullSignificand ∧ format.leastExponent ≤ exponent := by
  rcases format.value_cases bits with nan | ⟨infinite, _⟩ | ⟨significand, exponent, finite, pattern⟩
  · rw [nan] at stands
    cases stands
  · rw [infinite] at stands
    cases stands
  · have below := pattern.canonical.significand_lt
    rw [finite] at stands
    cases stands
    cases decide (format.signBit ≤ bits) with
    | true => exact ⟨-significand, exponent, by simp, by omega, pattern.canonical.least_le⟩
    | false => exact ⟨significand, exponent, by simp, by omega, pattern.canonical.least_le⟩

/-- The pattern of a significand and an exponent stands for them. -/
theorem value_pattern {significand : ℕ} {exponent : ℤ}
    (canonical : format.Canonical significand exponent)
    (finite : format.pattern significand exponent < format.infinityBits) :
    format.value (format.pattern significand exponent) = .finite false significand exponent := by
  have positive := format.fullSignificand_pos
  have least := canonical.least_le
  have small := canonical.significand_lt
  have last : format.specialField < 2 ^ format.exponentBits :=
    Nat.sub_lt (Nat.pow_pos two_pos) one_pos
  have unsigned : format.pattern significand exponent < format.signBit := by
    rw [signBit_eq, Nat.mul_comm]
    exact finite.trans ((Nat.mul_lt_mul_right positive).mpr last)
  have field := (Nat.div_lt_iff_lt_mul positive).mpr finite
  have sign : decide (format.signBit ≤ format.pattern significand exponent) = false :=
    decide_eq_false (Nat.not_le.mpr unsigned)
  unfold value
  simp only [sign, Nat.mod_eq_of_lt unsigned, field.ne, ↓reduceIte]
  by_cases full : format.fullSignificand ≤ significand
  · obtain ⟨fraction, rfl⟩ := Nat.exists_eq_add_of_le full
    obtain ⟨distance, split⟩ : ∃ distance, distance = (exponent - format.leastExponent).toNat :=
      ⟨_, rfl⟩
    have parts : format.pattern (format.fullSignificand + fraction) exponent =
        fraction + format.fullSignificand * (distance + 1) := by
      rw [pattern, ← split]
      ring
    have below : fraction < format.fullSignificand := by omega
    have exact : format.leastExponent + distance = exponent := by omega
    rw [parts, Nat.add_mul_div_left _ _ positive, Nat.add_mul_mod_self_left,
      Nat.div_eq_of_lt below, Nat.mod_eq_of_lt below, Nat.zero_add, if_neg (Nat.succ_ne_zero _),
      Nat.add_sub_cancel, exact]
  · have below := Nat.lt_of_not_le full
    have same : exponent = format.leastExponent :=
      le_antisymm (not_lt.mp fun above => full (canonical.full above)) least
    have bare : format.pattern significand exponent = significand := by
      rw [pattern, same, sub_self, Int.toNat_zero, Nat.zero_mul, Nat.zero_add]
    rw [bare, Nat.div_eq_of_lt below, Nat.mod_eq_of_lt below, if_pos rfl, same]

/-! ## Rounded numbers -/

/-- A number, rounded to a whole multiple of a power of two: the one at which it has a full
significand, or the least one. -/
structure Rounded (format : FloatFormat) (q : ℚ) (significand : ℕ) (exponent : ℤ) : Prop where
  least_le : format.leastExponent ≤ exponent
  below : q / 2 ^ exponent < 2 * format.fullSignificand
  full : format.leastExponent < exponent → (format.fullSignificand : ℚ) ≤ q / 2 ^ exponent
  roundsTo : RoundsTo (q / 2 ^ exponent) significand

/-- The bits that are computed are those of a rounded significand, or of infinity if it is too
great. -/
theorem exists_rounded (format : FloatFormat) {numerator denominator : ℕ} (some : 0 < numerator)
    (positive : 0 < denominator) :
    ∃ significand exponent, format.Rounded (numerator / denominator) significand exponent ∧
      format.nearest numerator denominator =
        min format.infinityBits (format.pattern significand exponent) := by
  obtain ⟨exponent, chosen⟩ : ∃ exponent, exponent =
      max format.leastExponent (floorLog2 numerator denominator - format.fractionBits) := ⟨_, rfl⟩
  have double : (2 : ℚ) ^ (exponent + 1) = 2 ^ exponent * 2 := zpow_add_one₀ two_ne_zero exponent
  obtain ⟨significand, rounds⟩ :=
    exists_roundsTo (q := numerator / denominator / 2 ^ exponent) (by positivity)
  refine ⟨significand, exponent, ?_, nearest_eq_of_roundsTo some positive chosen rounds⟩
  refine ⟨by omega, ?_, ?_, rounds⟩
  · by_contra reached
    have more : exponent + 1 ≤ floorLog2 numerator denominator - format.fractionBits := by
      rw [le_floorLog2_sub_iff format some positive, double, ← div_div, le_div_iff₀ two_pos]
      linarith
    omega
  · intro above
    rw [← le_floorLog2_sub_iff format some positive]
    omega

/-- Zero is rounded to zero at the least exponent. -/
theorem rounded_zero (format : FloatFormat) : format.Rounded 0 0 format.leastExponent where
  least_le := le_rfl
  below := by
    have positive := format.fullSignificand_pos
    rw [zero_div]
    exact_mod_cast Nat.mul_pos two_pos positive
  full above := absurd above (lt_irrefl _)
  roundsTo := ⟨by norm_num, by norm_num, fun _ => rfl⟩

namespace Rounded

variable {q : ℚ} {significand : ℕ} {exponent : ℤ}

/-- A rounded significand is at most twice a full one. -/
theorem significand_le (rounded : format.Rounded q significand exponent) :
    significand ≤ 2 * format.fullSignificand := by
  have low := rounded.roundsTo.low
  have below := rounded.below
  have less : (significand : ℚ) < (2 * format.fullSignificand : ℕ) + 1 := by
    push_cast
    linarith
  exact Nat.lt_succ_iff.mp (by exact_mod_cast less)

/-- Above the least exponent a rounded significand is full. -/
theorem full_le (rounded : format.Rounded q significand exponent)
    (above : format.leastExponent < exponent) : format.fullSignificand ≤ significand := by
  have high := rounded.roundsTo.high
  have full := rounded.full above
  have less : (format.fullSignificand : ℚ) < (significand : ℕ) + 1 := by linarith
  exact Nat.lt_succ_iff.mp (by exact_mod_cast less)

/-- The pattern stands for the multiple, also if that was rounded up to the next power of two. -/
theorem value_pattern (rounded : format.Rounded q significand exponent)
    (finite : format.pattern significand exponent < format.infinityBits) :
    ∃ own power, format.value (format.pattern significand exponent) = .finite false own power ∧
      (significand : ℚ) * 2 ^ exponent = own * 2 ^ power := by
  rcases rounded.significand_le.lt_or_eq with small | double
  · exact ⟨significand, exponent,
      FloatFormat.value_pattern ⟨rounded.least_le, small, rounded.full_le⟩ finite, rfl⟩
  · have positive := format.fullSignificand_pos
    have least := rounded.least_le
    have next : format.pattern significand exponent =
        format.pattern format.fullSignificand (exponent + 1) := by
      have above : format.leastExponent < exponent + 1 := by omega
      have same := pattern_double above
      rwa [add_sub_cancel_right, ← double] at same
    refine ⟨format.fullSignificand, exponent + 1, ?_, ?_⟩
    · rw [next] at finite ⊢
      exact FloatFormat.value_pattern ⟨by omega, by omega, fun _ => le_rfl⟩ finite
    · rw [double, zpow_add_one₀ two_ne_zero]
      push_cast
      ring

/-- **A finite float is a whole multiple as well, or it is below the number.** -/
theorem multiple_or_below (rounded : format.Rounded q significand exponent) {bits : ℕ} {number : ℚ}
    (stands : (format.value bits).number? = some number) :
    (∃ multiple : ℤ, number / 2 ^ exponent = multiple) ∨
      number / 2 ^ exponent < format.fullSignificand ∧
        (format.fullSignificand : ℚ) ≤ q / 2 ^ exponent := by
  obtain ⟨multiple, power, rfl, small, least⟩ := exists_multiple_of_number? stands
  have unit : (0 : ℚ) < 2 ^ exponent := by positivity
  by_cases coarse : exponent ≤ power
  · left
    obtain ⟨steps, rfl⟩ := Int.le.dest coarse
    refine ⟨multiple * 2 ^ steps, ?_⟩
    rw [zpow_add₀ two_ne_zero, zpow_natCast]
    push_cast
    field_simp
  · right
    have fine : power + 1 ≤ exponent := by omega
    refine ⟨?_, rounded.full (by omega)⟩
    rw [div_lt_iff₀ unit]
    have half : (2 : ℚ) * 2 ^ power ≤ 2 ^ exponent := by
      rw [mul_comm, ← zpow_add_one₀ two_ne_zero]
      exact two_zpow_le_iff.mpr fine
    have less : (multiple : ℚ) < 2 * format.fullSignificand := by exact_mod_cast small
    calc (multiple : ℚ) * 2 ^ power < 2 * format.fullSignificand * 2 ^ power := by gcongr
      _ = format.fullSignificand * (2 * 2 ^ power) := by ring
      _ ≤ format.fullSignificand * 2 ^ exponent := by gcongr

/-- To the multiple no finite float is preferred, in units of the power of two. -/
theorem preferred (rounded : format.Rounded q significand exponent) {bits : ℕ} {number : ℚ}
    (stands : (format.value bits).number? = some number) :
    |q / 2 ^ exponent - significand| ≤ |q / 2 ^ exponent - number / 2 ^ exponent| ∧
      (number / 2 ^ exponent ≠ significand →
        |q / 2 ^ exponent - number / 2 ^ exponent| = |q / 2 ^ exponent - significand| →
        significand % 2 = 0) := by
  rcases rounded.multiple_or_below stands with ⟨multiple, whole⟩ | ⟨below, full⟩
  · rw [whole]
    refine ⟨rounded.roundsTo.closest multiple, fun other tie => ?_⟩
    exact rounded.roundsTo.even_of_abs_sub_eq (fun same => other (by exact_mod_cast same)) tie
  · -- The least full significand is a whole multiple that is closer than what is below it.
    have least := rounded.roundsTo.closest format.fullSignificand
    rw [Int.cast_natCast, abs_of_nonneg (sub_nonneg.mpr full)] at least
    have far : |q / 2 ^ exponent - significand| < |q / 2 ^ exponent - number / 2 ^ exponent| :=
      calc |q / 2 ^ exponent - significand| ≤ q / 2 ^ exponent - format.fullSignificand := least
        _ < q / 2 ^ exponent - number / 2 ^ exponent := by linarith
        _ ≤ |q / 2 ^ exponent - number / 2 ^ exponent| := le_abs_self _
    exact ⟨far.le, fun _ tie => absurd tie far.ne'⟩

/-- **The nearest whole multiple is the nearest float.** -/
theorem nearestEven (rounded : format.Rounded q significand exponent)
    (fraction : 1 ≤ format.fractionBits)
    (finite : format.pattern significand exponent < format.infinityBits) :
    format.NearestEven q (format.pattern significand exponent) (significand * 2 ^ exponent) := by
  have unit : (0 : ℚ) < 2 ^ exponent := by positivity
  have own : (significand * 2 ^ exponent / 2 ^ exponent : ℚ) = significand :=
    mul_div_cancel_right₀ _ unit.ne'
  have scaled (n : ℚ) : |q - n| = |q / 2 ^ exponent - n / 2 ^ exponent| * 2 ^ exponent := by
    rw [← sub_div, abs_div, abs_of_pos unit, div_mul_cancel₀ _ unit.ne']
  refine ⟨rounded.value_pattern finite, ?_, ?_⟩
  · intro other n stands
    rw [scaled, scaled n, own]
    exact mul_le_mul_of_nonneg_right (rounded.preferred stands).1 unit.le
  · intro other n stands differs tie
    have even : significand % 2 = 0 := by
      refine (rounded.preferred stands).2 (fun same => differs ?_) ?_
      · rw [← same, div_mul_cancel₀ _ unit.ne']
      · rw [scaled, scaled (significand * 2 ^ exponent), own] at tie
        exact mul_right_cancel₀ unit.ne' tie
    obtain ⟨half, twice⟩ : 2 ∣ format.fullSignificand := dvd_pow_self 2 (by omega)
    rw [pattern, twice, Nat.mul_left_comm, Nat.mul_add_mod, even]

/-- What is a whole multiple itself is not rounded. -/
theorem eq_of_multiple (rounded : format.Rounded q significand exponent) {multiple : ℤ}
    (whole : q / 2 ^ exponent = multiple) : (significand : ℚ) * 2 ^ exponent = q := by
  have unit : (0 : ℚ) < 2 ^ exponent := by positivity
  have near := rounded.roundsTo.closest multiple
  rw [whole, sub_self, abs_zero] at near
  have same := sub_eq_zero.mp (abs_eq_zero.mp (le_antisymm near (abs_nonneg _)))
  rw [← same, ← whole, div_mul_cancel₀ _ unit.ne']

/-- A whole number that has no more bits than a full significand is not rounded. -/
theorem eq_natCast {n : ℕ} (rounded : format.Rounded n significand exponent)
    (least : format.leastExponent ≤ 0) (few : n ≤ 2 * format.fullSignificand) :
    (significand : ℚ) * 2 ^ exponent = n := by
  have unit : (0 : ℚ) < 2 ^ exponent := by positivity
  by_cases fine : exponent ≤ 0
  · have power : (2 : ℚ) ^ exponent = (2 ^ (-exponent).toNat)⁻¹ := by
      rw [← zpow_natCast, ← zpow_neg]
      congr 1
      omega
    have whole : (n / 2 ^ exponent : ℚ) = (n * 2 ^ (-exponent).toNat : ℤ) := by
      rw [power, div_inv_eq_mul]
      push_cast
      rfl
    exact rounded.eq_of_multiple whole
  · -- Only the greatest of these numbers has a positive exponent, and it is even.
    have full := rounded.full (by omega)
    rw [le_div_iff₀ unit] at full
    have double : (2 : ℚ) ≤ 2 ^ exponent := by
      have one : (2 : ℚ) ^ (1 : ℤ) ≤ 2 ^ exponent := two_zpow_le_iff.mpr (by omega)
      rwa [zpow_one] at one
    have positive : (0 : ℚ) < format.fullSignificand := by exact_mod_cast format.fullSignificand_pos
    have few : (n : ℚ) ≤ 2 * format.fullSignificand := by exact_mod_cast few
    have power : (2 : ℚ) ^ exponent = 2 := by nlinarith
    have whole : (n / 2 ^ exponent : ℚ) = (format.fullSignificand : ℤ) := by
      rw [power] at full ⊢
      rw [Int.cast_natCast, div_eq_iff two_ne_zero]
      linarith
    exact rounded.eq_of_multiple whole

/-- A number that is small enough is not rounded to infinity. -/
theorem pattern_lt (rounded : format.Rounded q significand exponent)
    (range : 2 ≤ format.exponentBits)
    (small : q < 2 ^ (2 ^ (format.exponentBits - 1) - 1)) :
    format.pattern significand exponent < format.infinityBits := by
  have positive := format.fullSignificand_pos
  have atMost := rounded.significand_le
  obtain ⟨distance, split⟩ : ∃ distance, distance = (exponent - format.leastExponent).toNat :=
    ⟨_, rfl⟩
  obtain ⟨half, power⟩ : ∃ half, half = 2 ^ (format.exponentBits - 1) := ⟨_, rfl⟩
  have two : 2 ≤ half := power ▸ Nat.le_self_pow (by omega) 2
  have last : format.specialField = 2 * half - 1 := by
    rw [specialField, Nat.pow_eq, power, ← Nat.pow_succ', Nat.succ_eq_add_one,
      Nat.sub_add_cancel (by omega)]
  have bottom : format.leastExponent = 2 - (half : ℤ) - format.fractionBits := by
    rw [leastExponent, Nat.pow_eq, power]
  have near : distance + 3 ≤ format.specialField := by
    rcases rounded.least_le.lt_or_eq with above | same
    · have unit : (0 : ℚ) < 2 ^ exponent := by positivity
      have full := rounded.full above
      rw [le_div_iff₀ unit, ← two_zpow_add_fractionBits] at full
      rw [← power, ← zpow_natCast] at small
      have less := (zpow_lt_zpow_iff_right₀ one_lt_two).mp (full.trans_lt small)
      omega
    · omega
  calc format.pattern significand exponent
      ≤ distance * format.fullSignificand + 2 * format.fullSignificand := by
        rw [pattern, ← split]
        omega
    _ < (distance + 3) * format.fullSignificand := by linarith
    _ ≤ format.infinityBits := Nat.mul_le_mul_right _ near

end Rounded

/-! ## Decimals of whole numbers -/

/-- **The decimal digits of a whole number are read as the nearest float.** -/
theorem exists_nearestEven (fraction : 1 ≤ format.fractionBits) (range : 2 ≤ format.exponentBits)
    {n : ℕ} (small : (n : ℚ) < 2 ^ (2 ^ (format.exponentBits - 1) - 1)) :
    ∃ number, format.NearestEven n (format.nearestDecimal n 0) number ∧
      format.nearestDecimal n 0 < format.infinityBits ∧
      (n ≤ 2 * format.fullSignificand → number = n) := by
  have least : format.leastExponent ≤ 0 := by
    have bottom : format.leastExponent =
        2 - (2 ^ (format.exponentBits - 1) : ℕ) - format.fractionBits := rfl
    have two : 2 ≤ 2 ^ (format.exponentBits - 1) := Nat.le_self_pow (by omega) 2
    omega
  obtain ⟨significand, exponent, rounded, read⟩ : ∃ significand exponent,
      format.Rounded n significand exponent ∧ format.nearestDecimal n 0 =
        min format.infinityBits (format.pattern significand exponent) := by
    rcases Nat.eq_zero_or_pos n with rfl | some
    · refine ⟨0, format.leastExponent, by exact_mod_cast format.rounded_zero, ?_⟩
      simp [nearestDecimal, pattern]
    · obtain ⟨significand, exponent, rounded, nearest⟩ := format.exists_rounded some one_pos
      have whole : (n / (10 ^ 0 : ℕ) : ℚ) = n := by rw [pow_zero, Nat.cast_one, div_one]
      rw [Nat.cast_one, div_one] at rounded
      refine ⟨significand, exponent, rounded, ?_⟩
      rw [← nearest]
      refine @nearestDecimal_eq_nearest format n 0 some ?_ ?_
      · rw [whole]
        calc (2 : ℚ) ^ (-(2 ^ format.exponentBits : ℕ) : ℤ) ≤ 2 ^ (0 : ℤ) :=
              two_zpow_le_iff.mpr (neg_nonpos.mpr (Int.natCast_nonneg _))
          _ ≤ n := by
              rw [zpow_zero]
              exact_mod_cast some
      · rw [whole, zpow_natCast]
        refine small.trans_le (pow_le_pow_right₀ one_le_two ?_)
        exact (Nat.sub_le _ 1).trans (Nat.pow_le_pow_right two_pos (Nat.sub_le _ 1))
  have finite := rounded.pattern_lt range small
  rw [read, Nat.min_eq_right finite.le]
  exact ⟨_, rounded.nearestEven fraction finite, finite, rounded.eq_natCast least⟩

end FloatFormat

end WasmGas

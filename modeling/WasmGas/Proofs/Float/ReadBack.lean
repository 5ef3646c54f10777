import WasmGas.Assembly.Assemble
import WasmGas.Proofs.Float.Positional
import WasmGas.Proofs.Float.Rounding

/-! # The text of a float is read back

The decimal that is written for a finite float lies in the interval of what is rounded to it
(`FloatFormat.inInterval_shortest`), and so the nearest float of the decimal is the one that was
written. Together with the words for the infinities this covers every pattern but those of a
not-a-number (`FloatFormat.ofText?_text`). Of the format nothing is asked but that its exponents
reach further than its fraction is long, so that no decimal that is written is out of range.
-/

namespace WasmGas

namespace RoundingInterval

variable {interval : RoundingInterval}

/-- A multiple that is found lies in the interval. -/
theorem holds_of_multiple? {unit n : Nat} (found : interval.multiple? unit = some n) :
    interval.holds n = true := by
  unfold multiple? at found
  by_cases below : interval.holds (interval.value / unit * unit) = true
  · simp only [below, ↓reduceIte] at found
    split at found
    · rename_i above
      cases found
      exact (Bool.and_eq_true_iff.mp above).1
    · cases found
      exact below
  · simp only [below, Bool.false_eq_true, ↓reduceIte] at found
    split at found
    · rename_i above
      cases found
      exact above
    · cases found

/-- The number itself is tried last. -/
theorem holds_roundest (inside : interval.holds interval.value = true) (limit : Nat) :
    interval.holds (interval.roundest limit) = true := by
  induction limit with
  | zero => exact inside
  | succ limit held =>
      rw [roundest]
      cases found : interval.multiple? (Nat.pow 10 (limit + 1)) with
      | none => exact held
      | some n => exact holds_of_multiple? found

end RoundingInterval

namespace FloatFormat

variable {format : FloatFormat}

/-! ## The decimal of a finite float -/

/-- A quarter of a significand's unit, counted in units of the last place. -/
def quarter (exponent : Int) (places : Nat) : Nat :=
  2 ^ (exponent - 2 + places).toNat * 5 ^ places

theorem quarter_pos (exponent : Int) (places : Nat) : 0 < quarter exponent places := by
  unfold quarter
  positivity

/-- Four quarters are the distance between floats, in units of the places. -/
theorem quarter_eq {exponent : Int} {places : Nat} (enough : 2 - exponent ≤ places) :
    (4 * quarter exponent places : ℚ) = 10 ^ places * 2 ^ exponent := by
  have exact : exponent = (exponent - 2 + places).toNat + 2 - places := by omega
  have split : (2 : ℚ) ^ exponent = 2 ^ (exponent - 2 + places).toNat * 4 / 2 ^ places := by
    conv_lhs => rw [exact]
    rw [zpow_sub₀ two_ne_zero, zpow_add₀ two_ne_zero, zpow_natCast, zpow_natCast]
    norm_num
  have ten : (10 : ℚ) ^ places = 2 ^ places * 5 ^ places := by
    rw [← mul_pow]
    norm_num
  rw [split, ten, quarter]
  push_cast
  field_simp

/-- The ends of a rounding interval, and which of them belong to it. -/
theorem holds_roundingInterval {significand n places : Nat} {exponent : Int}
    (held : (format.roundingInterval significand exponent places).holds n = true) :
    (4 * significand - if significand = format.fullSignificand then 1 else 2) *
        quarter exponent places ≤ n ∧
      n ≤ (4 * significand + 2) * quarter exponent places ∧
      (n = (4 * significand - if significand = format.fullSignificand then 1 else 2) *
          quarter exponent places ∨ n = (4 * significand + 2) * quarter exponent places →
        significand % 2 = 0) := by
  have unit : Nat.pow 2 (exponent - 2 + places).toNat * Nat.pow 5 places =
      quarter exponent places := rfl
  simp only [RoundingInterval.holds, roundingInterval, unit] at held
  by_cases even : significand % 2 = 0
  · simp only [even, decide_true, ↓reduceIte, Bool.and_eq_true, decide_eq_true_eq] at held
    exact ⟨held.1, held.2, fun _ => even⟩
  · simp only [even, decide_false, Bool.false_eq_true, ↓reduceIte, Bool.and_eq_true,
      decide_eq_true_eq] at held
    refine ⟨held.1.le, held.2.le, ?_⟩
    rintro (low | high)
    · omega
    · omega

/-- A number in the rounding interval, as it is found among the last places, is rounded to the
float. -/
theorem inInterval_of_holds {significand n places : Nat} {exponent : Int} (some : 0 < significand)
    (enough : 2 - exponent ≤ places)
    (held : (format.roundingInterval significand exponent places).holds n = true) :
    0 < n ∧ format.InInterval (n / 10 ^ places / 2 ^ exponent) significand := by
  obtain ⟨low, high, even⟩ := holds_roundingInterval held
  obtain ⟨down, step⟩ : ∃ down, down = if significand = format.fullSignificand then 1 else 2 :=
    ⟨_, rfl⟩
  rw [← step] at low even
  have positive := quarter_pos exponent places
  have unit : (0 : ℚ) < quarter exponent places := by exact_mod_cast positive
  have scaled : (n / 10 ^ places / 2 ^ exponent : ℚ) = n / (4 * quarter exponent places) := by
    rw [quarter_eq enough, div_div]
  have inner : down < 4 * significand := by
    rw [step]
    split <;> omega
  have reach : format.reach significand = down / 4 := by
    rw [FloatFormat.reach, step]
    split <;> norm_num
  have lowEnd : (significand - format.reach significand : ℚ) =
      ((4 * significand - down) * quarter exponent places : ℕ) /
        (4 * quarter exponent places) := by
    rw [reach, Nat.cast_mul, Nat.cast_sub inner.le]
    push_cast
    field_simp
  have highEnd : (significand + 1 / 2 : ℚ) =
      ((4 * significand + 2) * quarter exponent places : ℕ) / (4 * quarter exponent places) := by
    push_cast
    field_simp
    ring
  constructor
  · have least : 0 < (4 * significand - down) * quarter exponent places :=
      Nat.mul_pos (by omega) positive
    omega
  · constructor
    · rw [scaled, lowEnd]
      gcongr
    · rw [scaled, highEnd]
      gcongr
    · have divisor : (4 * quarter exponent places : ℚ) ≠ 0 := by positivity
      rw [scaled, lowEnd, highEnd, div_left_inj' divisor, div_left_inj' divisor, Nat.cast_inj,
        Nat.cast_inj]
      exact even

/-- The number itself lies between the ends of its interval. -/
theorem holds_value (format : FloatFormat) {significand : Nat} (some : 0 < significand)
    (exponent : Int) (places : Nat) : (format.roundingInterval significand exponent places).holds
      (format.roundingInterval significand exponent places).value = true := by
  have unit : Nat.pow 2 (exponent - 2 + places).toNat * Nat.pow 5 places =
      quarter exponent places := rfl
  have positive := quarter_pos exponent places
  have less : (4 * significand - if significand = format.fullSignificand then 1 else 2) *
      quarter exponent places < 4 * significand * quarter exponent places := by
    apply Nat.mul_lt_mul_of_pos_right _ positive
    split <;> omega
  have more : 4 * significand * quarter exponent places <
      (4 * significand + 2) * quarter exponent places :=
    Nat.mul_lt_mul_of_pos_right (by omega) positive
  simp only [RoundingInterval.holds, roundingInterval, unit]
  split
  · simp only [less.le, more.le, decide_true, Bool.and_self]
  · simp only [less, more, decide_true, Bool.and_self]

/-- The shortest decimal of a float lies in the interval of what is rounded to it. -/
theorem inInterval_shortest (format : FloatFormat) {significand : Nat} (some : 0 < significand)
    (exponent : Int) :
    ∃ digits behind : Nat, 0 < digits ∧
      decimal? (format.shortest significand exponent) = .some (digits, -(behind : Int)) ∧
      format.InInterval (digits / (10 ^ behind : ℕ) / 2 ^ exponent) significand := by
  obtain ⟨places, chosen⟩ : ∃ places, places = (2 - exponent).toNat := ⟨_, rfl⟩
  obtain ⟨n, found⟩ : ∃ n, n = (format.roundingInterval significand exponent places).roundest
      (Nat.toDigits 10 (format.roundingInterval significand exponent places).high).length :=
    ⟨_, rfl⟩
  have held := RoundingInterval.holds_roundest (format.holds_value some exponent places)
    (Nat.toDigits 10 (format.roundingInterval significand exponent places).high).length
  rw [← found] at held
  obtain ⟨positive, inside⟩ := inInterval_of_holds some (by omega) held
  have written : format.shortest significand exponent = positional n places := by
    rw [shortest, if_neg some.ne', found, chosen]
  obtain ⟨digits, behind, read, few, value⟩ := decimal?_positional n places
  refine ⟨digits, behind, ?_, ?_, ?_⟩
  · apply Nat.pos_of_ne_zero
    rintro rfl
    omega
  · rw [written, read]
  · have same : (digits / (10 ^ behind : ℕ) : ℚ) = n / 10 ^ places := by
      have powers : (10 : ℚ) ^ places = 10 ^ behind * 10 ^ (places - behind) := by
        rw [← pow_add, Nat.add_sub_cancel' few]
      rw [← value, powers]
      push_cast
      field_simp
    rw [same]
    exact inside

/-! ## Decimals in range -/

/-- The exponents of a format reach further than its fraction is long. -/
def Wide (format : FloatFormat) : Prop :=
  format.fractionBits + 2 ^ (format.exponentBits - 1) ≤ 2 ^ format.exponentBits

/-- The number of digits tells between which powers of ten a number lies. -/
theorem pow_length_toDigits_bounds {n : Nat} (some : 0 < n) :
    10 ^ ((Nat.toDigits 10 n).length - 1) ≤ n ∧ n < 10 ^ (Nat.toDigits 10 n).length := by
  have long := Nat.length_toDigits_pos (b := 10) (n := n)
  constructor
  · by_contra less
    by_cases single : (Nat.toDigits 10 n).length = 1
    · rw [single] at less
      omega
    · have shorter := (Nat.length_toDigits_le_iff (b := 10) (by decide) (by omega)).mpr
        (Nat.lt_of_not_le less)
      omega
  · exact (Nat.length_toDigits_le_iff (by decide) long).mp le_rfl

/-- A decimal that is not too far from one has a power of ten that is worked out. -/
theorem nearestDecimal_eq_nearest {digits behind : Nat} (some : 0 < digits)
    (low : (2 : ℚ) ^ (-(2 ^ format.exponentBits : ℕ) : ℤ) ≤ digits / (10 ^ behind : ℕ))
    (high : (digits / (10 ^ behind : ℕ) : ℚ) < 2 ^ ((2 ^ format.exponentBits : ℕ) : ℤ)) :
    format.nearestDecimal digits (-(behind : Int)) = format.nearest digits (10 ^ behind) := by
  obtain ⟨length, counted⟩ : ∃ length, length = (Nat.toDigits 10 digits).length := ⟨_, rfl⟩
  obtain ⟨range, wide⟩ : ∃ range, range = 2 ^ format.exponentBits := ⟨_, rfl⟩
  obtain ⟨atLeast, below⟩ := pow_length_toDigits_bounds some
  rw [← counted] at atLeast below
  rw [← wide] at low high
  have long : 0 < length := counted ▸ Nat.length_toDigits_pos
  have ten : (10 : ℚ) ≠ 0 := by norm_num
  have power : (0 : ℚ) < 10 ^ behind := by positivity
  have notMore : ¬ (range : ℤ) < length + -(behind : ℤ) := by
    intro more
    have digitsAtLeast : (10 : ℚ) ^ (length - 1 : ℕ) ≤ digits := by exact_mod_cast atLeast
    have reached : (10 : ℚ) ^ range ≤ digits / (10 ^ behind : ℕ) := by
      push_cast
      rw [le_div_iff₀ power, ← pow_add]
      exact le_trans (pow_le_pow_right₀ (by norm_num) (by omega)) digitsAtLeast
    have powers : (2 : ℚ) ^ range ≤ 10 ^ range := by gcongr; norm_num
    rw [zpow_natCast] at high
    exact absurd (powers.trans reached) (not_le.mpr high)
  have notLess : ¬ (length + -(behind : ℤ)) < -(range : ℤ) := by
    intro less
    have digitsBelow : (digits : ℚ) < 10 ^ length := by exact_mod_cast below
    have missed : (digits / (10 ^ behind : ℕ) : ℚ) < 1 / 10 ^ range := by
      push_cast
      rw [div_lt_div_iff₀ power (by positivity), one_mul]
      calc (digits * 10 ^ range : ℚ) < 10 ^ length * 10 ^ range := by gcongr
        _ = 10 ^ (length + range) := (pow_add 10 length range).symm
        _ ≤ 10 ^ behind := pow_le_pow_right₀ (by norm_num) (by omega)
    have powers : (1 / 10 ^ range : ℚ) ≤ 1 / 2 ^ range := by gcongr; norm_num
    rw [zpow_neg, zpow_natCast, ← one_div] at low
    exact absurd (low.trans_lt (missed.trans_le powers)) (lt_irrefl _)
  have behindNone : (-(behind : ℤ)).toNat = 0 := by omega
  unfold nearestDecimal
  simp only [Nat.pow_eq, ← counted, ← wide, some.ne', notMore, notLess, ↓reduceIte, behindNone,
    pow_zero, mul_one, neg_neg, Int.toNat_natCast]

/-! ## Patterns -/

/-- The significand and the exponent that a pattern stands for if it is no infinity and no
not-a-number. -/
structure FinitePattern (format : FloatFormat) (bits significand : Nat) (exponent : Int) :
    Prop where
  canonical : format.Canonical significand exponent
  pattern_eq : format.pattern significand exponent = bits % format.signBit
  finite : bits % format.signBit < format.infinityBits

/-- The sign bit stands above the exponent and the fraction. -/
theorem signBit_eq (format : FloatFormat) :
    format.signBit = format.fullSignificand * 2 ^ format.exponentBits := by
  rw [signBit, fullSignificand, Nat.pow_eq, Nat.pow_eq, ← Nat.pow_add, Nat.add_comm]

theorem signBit_pos (format : FloatFormat) : 0 < format.signBit := Nat.pow_pos two_pos

/-- What a pattern stands for tells its bits but for the sign. -/
theorem value_cases (format : FloatFormat) (bits : Nat) :
    format.value bits = .nan ∨
      format.value bits = .infinity (decide (format.signBit ≤ bits)) ∧
        bits % format.signBit = format.infinityBits ∨
      ∃ significand exponent,
        format.value bits = .finite (decide (format.signBit ≤ bits)) significand exponent ∧
          format.FinitePattern bits significand exponent := by
  obtain ⟨magnitude, split⟩ : ∃ magnitude, magnitude = bits % format.signBit := ⟨_, rfl⟩
  obtain ⟨field, whole⟩ : ∃ field, field = magnitude / format.fullSignificand := ⟨_, rfl⟩
  obtain ⟨fraction, rest⟩ : ∃ fraction, fraction = magnitude % format.fullSignificand := ⟨_, rfl⟩
  have positive := format.fullSignificand_pos
  have parts := Nat.div_add_mod' magnitude format.fullSignificand
  have below := Nat.mod_lt magnitude positive
  rw [← whole, ← rest] at parts
  rw [← rest] at below
  have inRange : field < 2 ^ format.exponentBits := by
    rw [whole]
    apply Nat.div_lt_of_lt_mul
    rw [← signBit_eq, split]
    exact Nat.mod_lt bits format.signBit_pos
  have last : format.specialField = 2 ^ format.exponentBits - 1 := rfl
  unfold value
  simp only [← split, ← whole, ← rest]
  by_cases special : field = format.specialField
  · rw [if_pos special]
    by_cases bare : fraction = 0
    · rw [if_pos bare]
      refine Or.inr (Or.inl ⟨rfl, ?_⟩)
      rw [infinityBits, ← special, ← parts, bare]
      rfl
    · rw [if_neg bare]
      exact Or.inl rfl
  have finite : magnitude < format.infinityBits := by
    rw [infinityBits, ← Nat.div_lt_iff_lt_mul positive, ← whole]
    omega
  rw [if_neg special]
  refine Or.inr (Or.inr ?_)
  by_cases small : field = 0
  · rw [if_pos small]
    refine ⟨_, _, rfl, ⟨le_rfl, by omega, fun above => absurd above (lt_irrefl _)⟩, ?_,
      split ▸ finite⟩
    rw [pattern, sub_self, ← split, ← parts, small]
    rfl
  · rw [if_neg small]
    have next : field = field - 1 + 1 := by omega
    refine ⟨_, _, rfl, ⟨by omega, by omega, fun _ => by omega⟩, ?_, split ▸ finite⟩
    rw [next, Nat.add_mul] at parts
    rw [pattern, ← split, add_sub_cancel_left, Int.toNat_natCast]
    omega

/-- The exponent of a finite float leaves the greatest field free. -/
theorem FinitePattern.exponent_le {bits significand : Nat} {exponent : Int}
    (pattern : format.FinitePattern bits significand exponent) :
    exponent + 1 ≤ format.leastExponent + format.specialField := by
  have least := pattern.canonical.least_le
  have inside : (exponent - format.leastExponent).toNat * format.fullSignificand <
      format.specialField * format.fullSignificand := by
    have whole := pattern.finite
    rw [← pattern.pattern_eq, FloatFormat.pattern, infinityBits] at whole
    omega
  have less := Nat.lt_of_mul_lt_mul_right inside
  omega

/-- In a wide format what is rounded to a float that is neither zero nor infinite is in the range
of decimals that are worked out. -/
theorem FinitePattern.range {bits significand : Nat} {exponent : Int} {q : ℚ} (wide : format.Wide)
    (pattern : format.FinitePattern bits significand exponent) (some : 0 < significand)
    (inside : format.InInterval (q / 2 ^ exponent) significand) :
    (2 : ℚ) ^ (-(2 ^ format.exponentBits : ℕ) : ℤ) ≤ q ∧
      q < 2 ^ ((2 ^ format.exponentBits : ℕ) : ℤ) := by
  have unit : (0 : ℚ) < 2 ^ exponent := by positivity
  have least : format.leastExponent =
      2 - (2 ^ (format.exponentBits - 1) : ℕ) - format.fractionBits := rfl
  have last : format.specialField = 2 ^ format.exponentBits - 1 := rfl
  have reach := format.reach_le significand
  have low := inside.low
  have high := inside.high
  have half := Nat.pow_pos (n := format.exponentBits - 1) two_pos
  have all := Nat.pow_pos (n := format.exponentBits) two_pos
  constructor
  · have one : (1 : ℚ) ≤ significand := by exact_mod_cast some
    have atLeast : (2 : ℚ) ^ (exponent - 1) ≤ q := by
      rw [zpow_sub_one₀ two_ne_zero, ← div_eq_mul_inv, div_eq_mul_one_div, mul_comm,
        ← le_div_iff₀ unit]
      linarith
    refine le_trans (two_zpow_le_iff.mpr ?_) atLeast
    have bottom := pattern.canonical.least_le
    unfold Wide at wide
    omega
  · have fits : (significand : ℚ) + 1 ≤ 2 * format.fullSignificand := by
      exact_mod_cast pattern.canonical.significand_lt
    have below : q < 2 ^ (exponent + 1 + format.fractionBits) := by
      rw [two_zpow_add_fractionBits, zpow_add_one₀ two_ne_zero, mul_comm ((2 : ℚ) ^ exponent),
        ← mul_assoc, ← div_lt_iff₀ unit]
      linarith
    refine lt_of_lt_of_le below (two_zpow_le_iff.mpr ?_)
    have top := pattern.exponent_le
    omega

/-! ## Texts -/

/-- **The shortest decimal of a float is read back.** -/
theorem FinitePattern.decimal?_shortest {bits significand : Nat} {exponent : Int}
    (wide : format.Wide) (pattern : format.FinitePattern bits significand exponent) :
    ∃ digits power, decimal? (format.shortest significand exponent) = some (digits, power) ∧
      format.nearestDecimal digits power = bits % format.signBit := by
  by_cases zero : significand = 0
  · refine ⟨0, 0, ?_, ?_⟩
    · rw [shortest, if_pos zero]
      decide
    · -- Only the least exponent has the significand zero.
      have least : format.leastExponent = exponent := by
        by_contra other
        have full := pattern.canonical.full (lt_of_le_of_ne pattern.canonical.least_le other)
        have positive := format.fullSignificand_pos
        omega
      rw [← pattern.pattern_eq, FloatFormat.pattern, zero, least, sub_self]
      simp [nearestDecimal]
  · obtain ⟨digits, behind, some, read, inside⟩ :=
      format.inInterval_shortest (Nat.pos_of_ne_zero zero) exponent
    refine ⟨digits, -(behind : Int), read, ?_⟩
    obtain ⟨low, high⟩ := pattern.range wide (Nat.pos_of_ne_zero zero) inside
    rw [nearestDecimal_eq_nearest some low high,
      nearest_eq_pattern some (Nat.pow_pos (by decide)) pattern.canonical inside,
      pattern.pattern_eq]
    exact Nat.min_eq_right pattern.finite.le

/-- The bits of a float are its sign and what is below. -/
theorem withSign_mod {bits : Nat} (fits : bits < 2 * format.signBit) :
    format.withSign (decide (format.signBit ≤ bits)) (bits % format.signBit) = bits := by
  by_cases negative : format.signBit ≤ bits
  · have rest : bits % format.signBit = bits - format.signBit := by
      rw [Nat.mod_eq_sub_mod negative, Nat.mod_eq_of_lt (by omega)]
    simp only [withSign, negative, decide_true, ↓reduceIte, rest]
    omega
  · simp only [withSign, negative, decide_false, Bool.false_eq_true, ↓reduceIte]
    exact Nat.mod_eq_of_lt (by omega)

/-- A text with a sign before it where one is due. -/
def signedText (negative : Bool) (magnitude : List Char) : List Char :=
  if negative then '-' :: magnitude else magnitude

/-- A sign that was written is taken off again. -/
theorem splitSign_signedText {negative : Bool} {magnitude : List Char}
    (unsigned : splitSign magnitude = (false, magnitude)) :
    splitSign (signedText negative magnitude) = (negative, magnitude) := by
  cases negative with
  | true => rfl
  | false => exact unsigned

/-- The shortest digits have no sign. -/
theorem splitSign_shortest (format : FloatFormat) (significand : Nat) (exponent : Int) :
    splitSign (format.shortest significand exponent) =
      (false, format.shortest significand exponent) := by
  unfold shortest
  split
  · rfl
  · exact splitSign_positional _ _

/-- **The text of a float is read back**, whatever the float, unless it is a not-a-number. -/
theorem ofText?_text (wide : format.Wide) {bits : Nat} (fits : bits < 2 * format.signBit)
    (number : format.value bits ≠ .nan) : format.ofText? (format.text bits) = some bits := by
  rcases format.value_cases bits with nan | ⟨infinite, whole⟩ | ⟨significand, exponent, finite,
    pattern⟩
  · exact absurd nan number
  · have written : format.text bits =
        signedText (decide (format.signBit ≤ bits)) "inf".toList := by
      rw [text, infinite]
      rfl
    have noDecimal : decimal? "inf".toList = none := by decide
    have word : String.ofList ("inf".toList.map Char.toLower) = "inf" := by decide
    rw [written, ofText?, splitSign_signedText (by decide)]
    simp only [noDecimal, word, true_or, ↓reduceIte, Option.map_some]
    rw [← whole, withSign_mod fits]
  · have written : format.text bits =
        signedText (decide (format.signBit ≤ bits)) (format.shortest significand exponent) := by
      rw [text, finite]
      rfl
    obtain ⟨digits, power, read, nearest⟩ := pattern.decimal?_shortest wide
    rw [written, ofText?, splitSign_signedText (format.splitSign_shortest significand exponent)]
    simp only [read, nearest, Option.map_some]
    rw [withSign_mod fits]

/-- The exponents of four bytes reach far enough. -/
theorem wide_binary32 : binary32.Wide := by
  unfold Wide
  decide

theorem wide_binary64 : binary64.Wide := by
  unfold Wide
  decide

end FloatFormat

namespace Assembly

/-- The text of a float constant is read back. -/
theorem float32?_text {bits : UInt32} (number : FloatFormat.binary32.value bits.toNat ≠ .nan) :
    float32? (FloatFormat.binary32.text bits.toNat) = some bits := by
  rw [float32?, FloatFormat.ofText?_text FloatFormat.wide_binary32 bits.toNat_lt number,
    Option.map_some, UInt32.ofNat_toNat]

/-- A float of eight bytes that is a number is read back from its text. -/
theorem float64?_text {bits : UInt64} (number : FloatFormat.binary64.value bits.toNat ≠ .nan) :
    float64? (FloatFormat.binary64.text bits.toNat) = some bits := by
  rw [float64?, FloatFormat.ofText?_text FloatFormat.wide_binary64 bits.toNat_lt number,
    Option.map_some, UInt64.ofNat_toNat]

end Assembly

end WasmGas

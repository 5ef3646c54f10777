import WasmGas.Proofs.Float.NearestEven
import WasmGas.Proofs.Metering.Call
import WasmGas.Wire.Instruction

/-! # Charges in floats

A register of floats takes every amount. The constant that passes one is written as the bytes of
the pattern that the decimal digits of the amount stand for, and all amounts are far below the
greatest float of either format. So what is passed is the nearest float, without a loss as long as
the amount has no more bits than a significand, and never less for a dearer run
(`Meter.charge_nearestEven`).
-/

namespace WasmGas

/-- The format of the floats that a register takes. -/
def Register.format? : Register → Option FloatFormat
  | i32 => none
  | i64 => none
  | f32 => some .binary32
  | f64 => some .binary64

/-- The format and the pattern of a float. -/
def Immediate.pattern? : Immediate → Option (FloatFormat × ℕ)
  | float32 bits => some (.binary32, bits.toNat)
  | float64 bits => some (.binary64, bits.toNat)
  | _ => none

/-- The bytes of a pattern, the least significant one first. -/
def FloatFormat.bytes (format : FloatFormat) (bits : ℕ) : Bytes :=
  littleEndian ((format.exponentBits + format.fractionBits + 1) / 8) bits

/-- A float is written as the bytes of its pattern. -/
theorem Immediate.write_of_pattern? {immediate : Immediate} {format : FloatFormat} {bits : ℕ}
    (float : immediate.pattern? = some (format, bits)) :
    immediate.write = .ok (format.bytes bits) := by
  cases immediate with
  | float32 bits =>
      cases float
      rfl
  | float64 bits =>
      cases float
      rfl
  | _ => cases float

namespace Meter

variable {meter : Meter} {format : FloatFormat} {cost : Gas}

/-- The constant of a charge in floats. -/
theorem charge_of_format? (floats : meter.register.format? = some format)
    (finite : format.nearestDecimal cost.units 0 < format.infinityBits) :
    ∃ immediate, meter.charge cost =
        .ok [⟨"const", Qualifier.ofValueType? meter.register.type, some immediate⟩,
          meter.invocation] ∧
      immediate.pattern? = some (format, format.nearestDecimal cost.units 0) := by
  obtain ⟨tariff, register, function⟩ := meter
  cases register with
  | i32 => cases floats
  | i64 => cases floats
  | f32 =>
      cases floats
      have holds : Register.f32.holds cost = true := rfl
      obtain ⟨_, ⟨bits, read, rfl⟩, called⟩ := (Meter.mk tariff .f32 function).call_eq_ok holds
      refine ⟨.float32 bits, called, ?_⟩
      rw [Assembly.float32?, FloatFormat.ofText?_naturalText, Option.map_some] at read
      cases read
      have word := UInt32.toNat_ofNat_of_lt' (finite.trans (by decide))
      rw [Immediate.pattern?, word]
  | f64 =>
      cases floats
      have holds : Register.f64.holds cost = true := rfl
      obtain ⟨_, ⟨bits, read, rfl⟩, called⟩ := (Meter.mk tariff .f64 function).call_eq_ok holds
      refine ⟨.float64 bits, called, ?_⟩
      rw [Assembly.float64?, FloatFormat.ofText?_naturalText, Option.map_some] at read
      cases read
      have word := UInt64.toNat_ofNat_of_lt' (finite.trans (by decide))
      rw [Immediate.pattern?, word]

/-- What the formats of registers have in common: fields of some length, and exponents that reach
further than the greatest amount of gas. -/
theorem wide_of_format? {register : Register} (floats : register.format? = some format) :
    1 ≤ format.fractionBits ∧ 2 ≤ format.exponentBits ∧
      64 ≤ 2 ^ (format.exponentBits - 1) - 1 := by
  cases register <;> cases floats <;> decide

/-- **Charges in floats.** If the metering function takes floats, then every amount is passed as the
nearest float, which is finite and not negative, and of two that are as near as the one with the
even significand. The constant is written as the bytes of that float, the least significant one
first. Amounts of no more bits than a significand has are passed as they are, and for a greater
amount nothing less is passed. -/
theorem charge_nearestEven (meter : Meter) (floats : meter.register.format? = some format) :
    ∃ (bits : Gas → ℕ) (number : Gas → ℚ),
      (∀ cost, format.NearestEven cost.units (bits cost) (number cost) ∧
        ∃ immediate, meter.charge cost =
            .ok [⟨"const", Qualifier.ofValueType? meter.register.type, some immediate⟩,
              meter.invocation] ∧
          immediate.pattern? = some (format, bits cost) ∧
          immediate.write = .ok (format.bytes (bits cost))) ∧
      (∀ cost, cost.units ≤ 2 ^ (format.fractionBits + 1) → number cost = cost.units) ∧
      ∀ cost dearer, cost.units ≤ dearer.units → number cost ≤ number dearer := by
  obtain ⟨fraction, range, reach⟩ := wide_of_format? floats
  have small (cost : Gas) : (cost.units : ℚ) < 2 ^ (2 ^ (format.exponentBits - 1) - 1) := by
    have below : cost.units < 2 ^ 64 := Nat.lt_of_le_pred (by decide) cost.units_le
    calc (cost.units : ℚ) < 2 ^ 64 := by exact_mod_cast below
      _ ≤ 2 ^ (2 ^ (format.exponentBits - 1) - 1) := pow_le_pow_right₀ one_le_two reach
  choose number nearest finite exact using
    fun cost : Gas => FloatFormat.exists_nearestEven fraction range (small cost)
  refine ⟨fun cost => format.nearestDecimal cost.units 0, number, ?_, ?_, ?_⟩
  · intro cost
    obtain ⟨immediate, charged, float⟩ := charge_of_format? floats (finite cost)
    exact ⟨nearest cost, immediate, charged, float, immediate.write_of_pattern? float⟩
  · intro cost few
    apply exact cost
    rw [FloatFormat.fullSignificand, Nat.pow_eq, ← Nat.pow_succ']
    exact few
  · intro cost dearer more
    rcases more.lt_or_eq with less | same
    · exact (nearest cost).le_of_lt (nearest dearer) (by exact_mod_cast less)
    · rw [Gas.ext same]

/-- The least amount that a register of short floats cannot pass as it is lies halfway between two
floats, and the lower one is even. -/
theorem charge_nearestEven_halfway :
    Register.f32.format? = some .binary32 ∧
      FloatFormat.binary32.NearestEven 16777217 0x4b800000 16777216 ∧
      (⟨[], .f32, 7⟩ : Meter).charge (.cap 16777217) =
        .ok [⟨"const", some .f32, some (.float32 0x4b800000)⟩,
          ⟨"call", none, some (.index 7)⟩] := by
  have floats : Register.f32.format? = some .binary32 := rfl
  obtain ⟨bits, number, each, _, _⟩ := charge_nearestEven ⟨[], .f32, 7⟩ floats
  obtain ⟨nearest, immediate, charged, float, _⟩ := each (.cap 16777217)
  have called : (⟨[], .f32, 7⟩ : Meter).charge (.cap 16777217) =
      .ok [⟨"const", some .f32, some (.float32 0x4b800000)⟩,
        ⟨"call", none, some (.index 7)⟩] := by
    decide +kernel
  cases called.symm.trans charged
  have pattern : 0x4b800000 = bits (.cap 16777217) :=
    congrArg Prod.snd (Option.some.inj float)
  have units : (Gas.cap 16777217).units = 16777217 := by decide
  have value : FloatFormat.binary32.value 0x4b800000 = .finite false 0x800000 1 := by decide
  have stands := nearest.number?_eq
  rw [← pattern, value] at stands
  have passed : 16777216 = number (.cap 16777217) := by
    rw [← Option.some.inj stands]
    norm_num
  rw [← pattern, units, ← passed] at nearest
  exact ⟨rfl, by exact_mod_cast nearest, called⟩

end Meter

end WasmGas

/-! # Binary interchange formats

A float is a bit pattern: a sign, a biased exponent and a fraction. Its value, where
it has one, is a significand times a power of two.
-/

namespace WasmGas

/-- A format, by the widths of its fields. -/
structure FloatFormat where
  fractionBits : Nat
  exponentBits : Nat
  deriving DecidableEq, Repr

/-- What a bit pattern stands for. -/
inductive FloatValue where
  | nan
  | infinity (negative : Bool)
  /-- The number `significand * 2 ^ exponent`, or its opposite. -/
  | finite (negative : Bool) (significand : Nat) (exponent : Int)
  deriving DecidableEq, Repr

namespace FloatFormat

def binary32 : FloatFormat := ⟨23, 8⟩

def binary64 : FloatFormat := ⟨52, 11⟩

variable (format : FloatFormat)

/-- The least significand of a number with a full one. -/
def fullSignificand : Nat := Nat.pow 2 format.fractionBits

/-- The exponent field of the patterns that are no finite number. -/
def specialField : Nat := Nat.pow 2 format.exponentBits - 1

/-- The exponent of the smallest numbers. -/
def leastExponent : Int :=
  2 - Nat.pow 2 (format.exponentBits - 1) - format.fractionBits

/-- The pattern of infinity. The patterns below it are the finite numbers that are
not negative, in their order. -/
def infinityBits : Nat := format.specialField * format.fullSignificand

/-- The pattern of a not-a-number. -/
def nanBits : Nat := format.infinityBits + format.fullSignificand / 2

/-- What the sign bit counts in a pattern. -/
def signBit : Nat := Nat.pow 2 (format.exponentBits + format.fractionBits)

def withSign (negative : Bool) (bits : Nat) : Nat :=
  if negative then format.signBit + bits else bits

/-- What a bit pattern stands for. -/
def value (bits : Nat) : FloatValue :=
  let negative := decide (format.signBit ≤ bits)
  let magnitude := bits % format.signBit
  let field := magnitude / format.fullSignificand
  let fraction := magnitude % format.fullSignificand
  if field = format.specialField then
    if fraction = 0 then .infinity negative else .nan
  else if field = 0 then
    .finite negative fraction format.leastExponent
  else
    .finite negative (format.fullSignificand + fraction) (format.leastExponent + (field - 1 : Nat))

end FloatFormat

end WasmGas

import WasmGas.Float.Format
import WasmGas.Text.Integer

/-! # The nearest float

Rounds a quotient of natural numbers to the nearest float, a tie going to the even
significand, and reads floats from decimal text by it.
-/

namespace WasmGas

/-- The whole number nearest to a quotient; of two the even one. -/
def roundHalfEven (numerator denominator : Nat) : Nat :=
  let whole := numerator / denominator
  let twice := 2 * (numerator % denominator)
  if twice < denominator then whole
  else if denominator < twice then whole + 1
  else whole + whole % 2

/-- The exponent of the greatest power of two that is not above a quotient. -/
def floorLog2 (numerator denominator : Nat) : Int :=
  let guess : Int := (numerator.log2 : Int) - denominator.log2
  let reached : Bool :=
    denominator * Nat.pow 2 guess.toNat ≤ numerator * Nat.pow 2 (-guess).toNat
  if reached then guess else guess - 1

/-- The pattern of the float that is nearest to a quotient. The significands of one
exponent follow in their patterns on those of the exponent below, so one that is
rounded up out of its range is still right. -/
def FloatFormat.nearest (format : FloatFormat) (numerator denominator : Nat) : Nat :=
  if numerator = 0 then 0
  else
    let exponent :=
      max format.leastExponent (floorLog2 numerator denominator - format.fractionBits)
    let significand :=
      roundHalfEven (numerator * Nat.pow 2 (-exponent).toNat)
        (denominator * Nat.pow 2 exponent.toNat)
    min format.infinityBits
      ((exponent - format.leastExponent).toNat * format.fullSignificand + significand)

/-- The pattern of the float that is nearest to `digits * 10 ^ exponent`. Powers of ten
that are out of every range are not worked out. -/
def FloatFormat.nearestDecimal (format : FloatFormat) (digits : Nat) (exponent : Int) : Nat :=
  let magnitude := (Nat.toDigits 10 digits).length + exponent
  let range : Int := Nat.pow 2 format.exponentBits
  if digits = 0 then 0
  else if range < magnitude then format.infinityBits
  else if magnitude < -range then 0
  else format.nearest (digits * Nat.pow 10 exponent.toNat) (Nat.pow 10 (-exponent).toNat)

/-- A sign at the start of a text, and what follows it. -/
def splitSign : List Char → Bool × List Char
  | '-' :: rest => (true, rest)
  | '+' :: rest => (false, rest)
  | rest => (false, rest)

/-- The exponent part of a decimal: nothing, or a letter and a number. -/
def exponentPart? : List Char → Option Int
  | [] => some 0
  | letter :: rest =>
    if letter.toLower = 'e' then
      let (negative, digits) := splitSign rest
      (natural? digits).map fun n => if negative then -(n : Int) else n
    else none

/-- Digits with at most one point among them, at least one digit, and an exponent
part, as a number and the power of ten that it is to be taken with. -/
def decimal? (text : List Char) : Option (Nat × Int) :=
  let whole := text.takeWhile Char.isDigit
  let (fraction, rest) :=
    match text.dropWhile Char.isDigit with
    | '.' :: after => (after.takeWhile Char.isDigit, after.dropWhile Char.isDigit)
    | after => ([], after)
  match natural? (whole ++ fraction), exponentPart? rest with
  | some digits, some exponent => some (digits, exponent - fraction.length)
  | _, _ => none

/-- The pattern of the float that a text stands for: a decimal, or one of the words
`inf`, `infinity` and `nan` in letters of any case, perhaps after a sign. -/
def FloatFormat.ofText? (format : FloatFormat) (text : List Char) : Option Nat :=
  let (negative, unsigned) := splitSign text
  let magnitude :=
    match decimal? unsigned with
    | some (digits, exponent) => some (format.nearestDecimal digits exponent)
    | none =>
      let word := String.ofList (unsigned.map Char.toLower)
      if word = "inf" ∨ word = "infinity" then some format.infinityBits
      else if word = "nan" then some format.nanBits
      else none
  magnitude.map (format.withSign negative)

end WasmGas

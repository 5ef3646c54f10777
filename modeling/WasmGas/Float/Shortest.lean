import WasmGas.Float.Format

/-! # The shortest decimal

A finite float is written with the fewest digits that read back as the same float,
and of those with the digits nearest to its value. The text is always positional:
never an exponent, no point behind a whole number.
-/

namespace WasmGas

/-- A number and the ends of the interval of what rounds to it, counted in some unit.
The ends themselves belong to the interval if it is closed. -/
structure RoundingInterval where
  low : Nat
  value : Nat
  high : Nat
  closed : Bool

namespace RoundingInterval

def holds (interval : RoundingInterval) (n : Nat) : Bool :=
  if interval.closed then interval.low ≤ n && n ≤ interval.high
  else interval.low < n && n < interval.high

/-- The multiple of `unit` in the interval that is nearest to the value. Of two the
greater; only the neighbours of the value have to be tried. -/
def multiple? (interval : RoundingInterval) (unit : Nat) : Option Nat :=
  let below := interval.value / unit * unit
  let above := below + unit
  if interval.holds below then
    if interval.holds above && above - interval.value ≤ interval.value - below then some above
    else some below
  else if interval.holds above then some above
  else none

/-- The nearest multiple of the greatest power of ten that has one in the interval,
among the powers up to `limit`. -/
def roundest (interval : RoundingInterval) : (limit : Nat) → Nat
  | 0 => interval.value
  | limit + 1 => (interval.multiple? (Nat.pow 10 (limit + 1))).getD (interval.roundest limit)

end RoundingInterval

/-- `n / 10 ^ places` in positional notation, without zeros at the end. -/
def positional (n places : Nat) : List Char :=
  let whole := Nat.toDigits 10 (n / Nat.pow 10 places)
  let digits := Nat.toDigits 10 (n % Nat.pow 10 places)
  let padded := List.replicate (places - digits.length) '0' ++ digits
  let fraction := (padded.reverse.dropWhile (· == '0')).reverse
  if fraction = [] then whole else whole ++ '.' :: fraction

/-- The interval of what rounds to `significand * 2 ^ exponent`, in units of
`10 ^ -places`. Below the least full significand the next number is taken to lie at half
the distance. -/
def FloatFormat.roundingInterval (format : FloatFormat) (significand : Nat) (exponent : Int)
    (places : Nat) : RoundingInterval :=
  let unit := Nat.pow 2 (exponent - 2 + places).toNat * Nat.pow 5 places
  let below := if significand = format.fullSignificand then 1 else 2
  { low := (4 * significand - below) * unit
    value := 4 * significand * unit
    high := (4 * significand + 2) * unit
    closed := significand % 2 = 0 }

/-- The shortest decimal of `significand * 2 ^ exponent`. -/
def FloatFormat.shortest (format : FloatFormat) (significand : Nat) (exponent : Int) :
    List Char :=
  if significand = 0 then ['0']
  else
    let places := (2 - exponent).toNat
    let interval := format.roundingInterval significand exponent places
    positional (interval.roundest (Nat.toDigits 10 interval.high).length) places

/-- The text of a float. A not-a-number shows neither sign nor payload. -/
def FloatFormat.text (format : FloatFormat) (bits : Nat) : List Char :=
  let signed (negative : Bool) (magnitude : List Char) : List Char :=
    if negative then '-' :: magnitude else magnitude
  match format.value bits with
  | .nan => "NaN".toList
  | .infinity negative => signed negative "inf".toList
  | .finite negative significand exponent =>
    signed negative (format.shortest significand exponent)

end WasmGas

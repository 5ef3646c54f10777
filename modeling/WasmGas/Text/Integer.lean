/-! # Integers in text

Decimal digits, with a sign before them where one is allowed. A number outside the
range of its type is not read.
-/

namespace WasmGas

def naturalText (n : Nat) : List Char := Nat.toDigits 10 n

def integerText (i : Int) : List Char :=
  if i < 0 then '-' :: naturalText i.natAbs else naturalText i.natAbs

/-- The number that decimal digits stand for; at least one of them is needed. -/
def natural? (digits : List Char) : Option Nat :=
  if digits ≠ [] ∧ digits.all Char.isDigit then some (Nat.ofDigitChars 10 digits 0) else none

/-- A number below `bound`, perhaps after a plus sign. -/
def naturalBelow? (bound : Nat) (text : List Char) : Option Nat :=
  let digits :=
    match text with
    | '+' :: digits => digits
    | digits => digits
  (natural? digits).filter (· < bound)

/-- A number from `-bound` up to `bound - 1`, perhaps after a sign. -/
def integerWithin? (bound : Nat) (text : List Char) : Option Int :=
  let value : Option Int :=
    match text with
    | '+' :: digits => (natural? digits).map Int.ofNat
    | '-' :: digits => (natural? digits).map fun n => -Int.ofNat n
    | digits => (natural? digits).map Int.ofNat
  value.filter fun i => -(bound : Int) ≤ i && i < bound

end WasmGas

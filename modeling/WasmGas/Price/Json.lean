import WasmGas.Price.Tariff
import WasmGas.Text.Integer

/-! # Tariffs as JSON

A tariff is written as a JSON object, with its keys in rising order and no blanks.
Read is any JSON object whose values are objects of that kind or whole numbers in the
range of gas; of a key that comes twice the later value counts.
-/

namespace WasmGas

namespace Json

/-- How many levels of objects may lie one inside the other. -/
def maxLevels : Nat := 127

/-! ## Writing -/

def hexDigit (n : Nat) : Char := Nat.digitChar (n % 16)

/-- A character inside quotes. Only the quote, the backslash and the control characters
need more than themselves. -/
def escape (c : Char) : List Char :=
  if c = '"' then ['\\', '"']
  else if c = '\\' then ['\\', '\\']
  else if c = '\x08' then ['\\', 'b']
  else if c = '\x0c' then ['\\', 'f']
  else if c = '\n' then ['\\', 'n']
  else if c = '\r' then ['\\', 'r']
  else if c = '\t' then ['\\', 't']
  else if c.toNat < 0x20 then ['\\', 'u', '0', '0', hexDigit (c.toNat / 16), hexDigit c.toNat]
  else [c]

def quote (text : String) : List Char :=
  '"' :: text.toList.flatMap escape ++ ['"']

mutual

def writePrice : Price → List Char
  | .flat gas => naturalText gas.units
  | .tariff entries => '{' :: writeEntries entries ++ ['}']

/-- Bindings with commas between them. -/
def writeEntries : List (String × Price) → List Char
  | [] => []
  | [(key, price)] => quote key ++ ':' :: writePrice price
  | (key, price) :: others => quote key ++ ':' :: writePrice price ++ ',' :: writeEntries others

end

/-! ## Reading -/

/-- A step that takes characters off the front of a text. -/
abbrev Parser (α : Type) := List Char → Option (α × List Char)

def isBlank (c : Char) : Bool := c = ' ' || c = '\t' || c = '\n' || c = '\r'

def skipBlanks (text : List Char) : List Char := text.dropWhile isBlank

/-- The value of a digit in base sixteen. -/
def hexValue? (c : Char) : Option Nat :=
  if '0' ≤ c ∧ c ≤ '9' then some (c.toNat - '0'.toNat)
  else if 'a' ≤ c ∧ c ≤ 'f' then some (c.toNat - 'a'.toNat + 10)
  else if 'A' ≤ c ∧ c ≤ 'F' then some (c.toNat - 'A'.toNat + 10)
  else none

/-- Four digits in base sixteen. -/
def codeUnit? (a b c d : Char) : Option Nat := do
  return 0x1000 * (← hexValue? a) + 0x100 * (← hexValue? b) + 0x10 * (← hexValue? c) +
    (← hexValue? d)

def isHighSurrogate (unit : Nat) : Bool := 0xd800 ≤ unit && unit < 0xdc00

def isLowSurrogate (unit : Nat) : Bool := 0xdc00 ≤ unit && unit < 0xe000

/-- The character that a letter after a backslash stands for. -/
def unescape? (letter : Char) : Option Char :=
  match letter with
  | '"' => some '"'
  | '\\' => some '\\'
  | '/' => some '/'
  | 'b' => some '\x08'
  | 'f' => some '\x0c'
  | 'n' => some '\n'
  | 'r' => some '\r'
  | 't' => some '\t'
  | _ => none

/-- A character in front of what a parser found. -/
def andThen (c : Char) : Option (List Char × List Char) → Option (List Char × List Char) :=
  Option.map fun (found, rest) => (c :: found, rest)

/-- The characters up to the closing quote. A high surrogate needs a low one right after
it, and a low one needs a high one before. -/
def quoted : Parser (List Char)
  | [] => none
  | '"' :: rest => some ([], rest)
  | '\\' :: 'u' :: a :: b :: c :: d :: rest => do
    let unit ← codeUnit? a b c d
    if isHighSurrogate unit then
      match rest with
      | '\\' :: 'u' :: e :: f :: g :: h :: rest => do
        let low ← codeUnit? e f g h
        if isLowSurrogate low then
          andThen (Char.ofNat (0x10000 + 0x400 * (unit - 0xd800) + (low - 0xdc00))) (quoted rest)
        else none
      | _ => none
    else if isLowSurrogate unit then none
    else andThen (Char.ofNat unit) (quoted rest)
  | '\\' :: letter :: rest => do
    let c ← unescape? letter
    andThen c (quoted rest)
  | c :: rest => if c.toNat < 0x20 then none else andThen c (quoted rest)

/-- A text in quotes. -/
def string : Parser String
  | '"' :: rest => (quoted rest).map fun (found, rest) => (String.ofList found, rest)
  | _ => none

/-- A number in the range of gas: a zero alone, or digits that do not begin with one. -/
def number : Parser Gas
  | '0' :: rest => some (0, rest)
  | text => do
    let gas ← (natural? (text.takeWhile Char.isDigit)).bind Gas.ofNat?
    return (gas, text.dropWhile Char.isDigit)

/-- A key, a colon and a value. -/
def binding (value : Parser Price) : Parser (String × Price) := fun text => do
  let (key, rest) ← string (skipBlanks text)
  match skipBlanks rest with
  | ':' :: rest =>
    let (price, rest) ← value (skipBlanks rest)
    return ((key, price), skipBlanks rest)
  | _ => none

/-- At most `limit` bindings with commas between them, up to the closing brace. -/
def bindings (value : Parser Price) : (limit : Nat) → Parser (List (String × Price))
  | 0, _ => none
  | limit + 1, text => do
    let (first, rest) ← binding value text
    match rest with
    | '}' :: rest => return ([first], rest)
    | ',' :: rest =>
      let (others, rest) ← bindings value limit rest
      return (first :: others, rest)
    | _ => none

/-- What stands behind an opening brace: bindings and the closing brace. There are no
more of them than characters. -/
def object (value : Parser Price) : Parser Tariff := fun text =>
  match skipBlanks text with
  | '}' :: rest => some ([], rest)
  | text => do
    let (found, rest) ← bindings value text.length text
    return (Tariff.ofBindings found, rest)

/-- A number or an object, of at most `levels` levels. -/
def price : (levels : Nat) → Parser Price
  | 0, text => (number text).map fun (gas, rest) => (.flat gas, rest)
  | levels + 1, '{' :: rest =>
    (object (price levels) rest).map fun (entries, rest) => (.tariff entries, rest)
  | _ + 1, text => (number text).map fun (gas, rest) => (.flat gas, rest)

end Json

namespace Tariff

/-- The JSON text of a tariff. -/
def toJson (tariff : Tariff) : String := String.ofList (Json.writePrice (.tariff tariff))

/-- The tariff that a JSON text stands for. -/
def ofJson? (text : String) : Option Tariff := do
  let (price, rest) ← Json.price Json.maxLevels (Json.skipBlanks text.toList)
  match price, Json.skipBlanks rest with
  | .tariff entries, [] => return entries
  | _, _ => none

end Tariff

end WasmGas

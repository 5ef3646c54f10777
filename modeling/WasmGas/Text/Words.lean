/-! # Words

Text is cut into words at blanks. A blank is a character with the property
`White_Space`.
-/

namespace WasmGas

/-- Whether a character has the property `White_Space`. -/
def isBlank (c : Char) : Bool :=
  let code := c.toNat
  (0x09 ≤ code && code ≤ 0x0d) || code == 0x20 || code == 0x85 || code == 0xa0 ||
    code == 0x1680 || (0x2000 ≤ code && code ≤ 0x200a) || code == 0x2028 || code == 0x2029 ||
    code == 0x202f || code == 0x205f || code == 0x3000

/-- A word in front of others, unless it is empty. -/
def consWord (first : List Char) (others : List (List Char)) : List (List Char) :=
  if first = [] then others else first :: others

/-- The characters before the first blank, and the words after it. -/
def splitWords : List Char → List Char × List (List Char)
  | [] => ([], [])
  | c :: rest =>
    let (first, others) := splitWords rest
    if isBlank c then ([], consWord first others) else (c :: first, others)

/-- The words of a text: its longest runs without a blank. -/
def words (text : List Char) : List (List Char) :=
  let (first, others) := splitWords text
  consWord first others

end WasmGas

/-! # Control sequences

Text may hold sequences of characters that steer a terminal and are not shown by it. A
sequence begins with an escape character and is read byte by byte in UTF-8; what kind it
is decides where it ends. `stripControls` keeps what shows, for a text that goes
elsewhere than to a terminal.
-/

namespace WasmGas

/-- Where a text stands in a control sequence. -/
inductive ControlPosition where
  /-- Outside of any sequence. -/
  | outside
  /-- Right behind the escape character. -/
  | escape
  /-- Behind an escape whose final byte is still to come. -/
  | escapeTail
  /-- In a control function, which its final byte ends. -/
  | function
  /-- At the start of a device control string. -/
  | deviceStart
  /-- Among the parameters of a device control string. -/
  | deviceParameters
  /-- Behind the parameters of a device control string. -/
  | deviceTail
  /-- In the content of a string, which a string terminator ends. -/
  | string
  /-- In a command to the operating system, which a bell ends. -/
  | command
  deriving DecidableEq, Repr

namespace ControlPosition

/-- Whether a byte is one from `low` to `high`. -/
def spans (low high byte : UInt8) : Bool := low ≤ byte && byte ≤ high

/-- The position behind an escape character and another byte. -/
def afterEscape (byte : UInt8) : ControlPosition :=
  if spans 0x20 0x2f byte then escapeTail
  else if byte = 0x50 then deviceStart
  else if byte = 0x58 ∨ byte = 0x5e ∨ byte = 0x5f then string
  else if byte = 0x5b then function
  else if byte = 0x5d then command
  else if spans 0x30 0x7e byte then outside
  else escape

/-- The position behind one more byte. A byte that means nothing changes nothing; an
escape character begins anew, and the two cancelling bytes end every sequence. -/
def after (position : ControlPosition) (byte : UInt8) : ControlPosition :=
  if byte = 0x1b then escape
  else if byte = 0x18 ∨ byte = 0x1a then outside
  else
    match position with
    | outside => outside
    | escape => afterEscape byte
    | escapeTail => if spans 0x30 0x7e byte then outside else escapeTail
    | function => if spans 0x40 0x7e byte then outside else function
    | deviceStart =>
      if spans 0x20 0x2f byte then deviceTail
      else if spans 0x30 0x3f byte then deviceParameters
      else if spans 0x40 0x7e byte then string
      else deviceStart
    | deviceParameters =>
      if spans 0x20 0x2f byte then deviceTail
      else if spans 0x3c 0x7e byte then string
      else deviceParameters
    | deviceTail => if spans 0x30 0x7e byte then string else deviceTail
    | string => if byte = 0x9c then outside else string
    | command => if byte = 0x07 then outside else command

/-- The position behind the bytes of a character. -/
def afterChar (position : ControlPosition) (c : Char) : ControlPosition :=
  (String.utf8EncodeChar c).foldl after position

end ControlPosition

/-- Whether a control character moves on in the text. -/
def isSpacing (c : Char) : Bool := c = '\t' || c = '\n' || c = '\x0c' || c = '\r'

/-- Whether a character shows where it stands outside of any sequence. -/
def isShown (c : Char) : Bool := isSpacing c || (0x20 ≤ c.toNat && c.toNat != 0x7f)

/-- Whether a character shows at a position. Spacing shows in the sequences that are no
strings. -/
def ControlPosition.shows (position : ControlPosition) (c : Char) : Bool :=
  match position with
  | outside => isShown c
  | escape => isSpacing c
  | escapeTail => isSpacing c
  | function => isSpacing c
  | _ => false

/-- The characters that show, from a position on. Spacing suspends a sequence: while
`showing`, what follows it shows as well, and the sequence goes on at the next character
that does not, unless one beyond ASCII ends it before. -/
def shownFrom : (showing : Bool) → ControlPosition → List Char → List Char
  | _, _, [] => []
  | showing, position, c :: rest =>
    if position.shows c || (showing && isShown c) then
      c :: shownFrom true (if c.toNat < 0x80 then position else .outside) rest
    else shownFrom false (position.afterChar c) rest

/-- A text without its control sequences and without control characters but spacing. -/
def stripControls (text : String) : String :=
  String.ofList (shownFrom false .outside text.toList)

end WasmGas

import WasmGas.Wire.Fault

/-! # Cursors and readers

A cursor is what is left to read of a file, or of a part of it, and where in the
file that begins. A reader is a step that moves a cursor; it returns the cursor
also when it fails, for a number that is cut short has been read up to the cut.
The reads here, in contrast, leave the cursor alone when they fail.
-/

namespace WasmGas

abbrev Bytes := List UInt8

structure Cursor where
  /-- The offset in the file of the first byte left. -/
  offset : Nat
  rest : Bytes
  deriving DecidableEq, Repr

namespace Cursor

def ofBytes (bytes : Bytes) : Cursor := ⟨0, bytes⟩

def remaining (cursor : Cursor) : Nat := cursor.rest.length

/-- The cursor after the next `count` bytes. -/
def advance (cursor : Cursor) (count : Nat) : Cursor :=
  ⟨cursor.offset + count, cursor.rest.drop count⟩

end Cursor

abbrev Reader (α : Type) := EStateM DecodeError Cursor α

namespace Reader

/-- The value that a reader finds at the start of some bytes. -/
def value (reader : Reader α) (cursor : Cursor) : Except DecodeError α :=
  match reader cursor with
  | .ok a _ => .ok a
  | .error fault _ => .error fault

def offset : Reader Nat := fun cursor => .ok cursor.offset cursor

def byte : Reader UInt8
  | ⟨offset, []⟩ => .error (.truncated offset 1) ⟨offset, []⟩
  | ⟨offset, head :: tail⟩ => .ok head ⟨offset + 1, tail⟩

/-- The next `count` bytes. -/
def take (count : Nat) : Reader Bytes := fun cursor =>
  if cursor.remaining < count then
    .error (.truncated cursor.offset (count - cursor.remaining)) cursor
  else
    .ok (cursor.rest.take count) (cursor.advance count)

/-- Everything that is left. -/
def rest : Reader Bytes := fun cursor =>
  .ok cursor.rest (cursor.advance cursor.remaining)

/-- The next `count` bytes as a cursor of their own. -/
def slice (count : Nat) : Reader Cursor := do
  let start ← offset
  let bytes ← take count
  return ⟨start, bytes⟩

/-- A byte that is the code of something; `fault` says what is wrong with one that
is not. -/
def code (ofByte? : UInt8 → Option α) (fault : UInt8 → Nat → DecodeError) : Reader α := do
  let start ← offset
  let head ← byte
  match ofByte? head with
  | some a => return a
  | none => throw (fault head start)

end Reader

/-- The value of bytes, the least significant one first. -/
def ofLittleEndian : Bytes → Nat
  | [] => 0
  | head :: tail => head.toNat + 256 * ofLittleEndian tail

/-- The lowest `width` bytes of a number, the least significant one first. -/
def littleEndian : (width : Nat) → Nat → Bytes
  | 0, _ => []
  | width + 1, n => UInt8.ofNat (n % 256) :: littleEndian width (n / 256)

def Reader.word32 : Reader UInt32 := do
  return UInt32.ofNat (ofLittleEndian (← take 4))

def Reader.word64 : Reader UInt64 := do
  return UInt64.ofNat (ofLittleEndian (← take 8))

def word32 (word : UInt32) : Bytes := littleEndian 4 word.toNat

def word64 (word : UInt64) : Bytes := littleEndian 8 word.toNat

end WasmGas

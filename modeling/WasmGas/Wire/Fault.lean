import WasmGas.Module.Instruction

/-! # What can go wrong on the wire

The causes for which bytes are no module and a module has no bytes. Offsets are
counted from the first byte of the file, whatever part of it was being read.
-/

namespace WasmGas

/-- The two digits of a byte in base sixteen. -/
def hexDigits (byte : UInt8) : String :=
  String.ofList [Nat.digitChar (byte.toNat / 16), Nat.digitChar (byte.toNat % 16)]

inductive DecodeError where
  /-- The bytes end before a read does. -/
  | truncated (offset needed : Nat)
  /-- A region declares another size than its content takes up. -/
  | sizeMismatch (region : String) (declared consumed : Nat)
  | unknownOpcode (opcode : UInt8) (offset : Nat)
  | unknownSection (id : UInt8) (offset : Nat)
  | unknownValueType (byte : UInt8) (offset : Nat)
  | unknownExternalKind (byte : UInt8) (offset : Nat)
  | unsupportedLimits (flags : UInt32) (offset : Nat)
  | invalidMutability (byte : UInt8) (offset : Nat)
  /-- An initializer goes on after its one instruction. -/
  | unterminatedInitializer (offset : Nat)
  | varintOverflow (offset : Nat)
  | invalidUtf8 (offset : Nat)
  deriving DecidableEq, Repr

def DecodeError.message : DecodeError → String
  | truncated offset needed =>
    s!"truncated input at byte {offset}: needed {needed} more byte(s)"
  | sizeMismatch region declared consumed =>
    s!"{region} section declares {declared} byte(s) but its decoder consumed {consumed}"
  | unknownOpcode opcode offset => s!"unknown opcode 0x{hexDigits opcode} at byte {offset}"
  | unknownSection id offset => s!"unknown section id {id} at byte {offset}"
  | unknownValueType byte offset => s!"invalid value type 0x{hexDigits byte} at byte {offset}"
  | unknownExternalKind byte offset =>
    s!"invalid external kind 0x{hexDigits byte} at byte {offset}"
  | unsupportedLimits flags offset => s!"unsupported limits flags {flags} at byte {offset}"
  | invalidMutability byte offset =>
    s!"invalid global mutability 0x{hexDigits byte} at byte {offset}"
  | unterminatedInitializer offset =>
    s!"initializer expression at byte {offset} is not terminated by `end`"
  | varintOverflow offset => s!"LEB128 value at byte {offset} overflows its target width"
  | invalidUtf8 offset => s!"invalid UTF-8 string at byte {offset}"

inductive EncodeError where
  | unknownInstruction (mnemonic : String)
  /-- The immediate has not the shape that the opcode table asks for. -/
  | malformedImmediate (mnemonic : String) (expected : Option ImmediateShape)
  | lengthOverflow (what : String) (length : Nat)
  deriving DecidableEq, Repr

def EncodeError.message : EncodeError → String
  | unknownInstruction mnemonic => s!"no opcode for instruction `{mnemonic}`"
  | malformedImmediate mnemonic expected =>
    let shape := (expected.map (·.name)).getD "no"
    s!"instruction `{mnemonic}` expects a {shape} immediate"
  | lengthOverflow what length => s!"{what} length {length} does not fit in a u32"

end WasmGas

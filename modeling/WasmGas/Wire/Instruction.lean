import WasmGas.Module.Opcode
import WasmGas.Wire.Region

/-! # Instructions on the wire

An opcode, and then the immediate whose shape the opcode table gives.
-/

namespace WasmGas

def Reader.valueType : Reader ValueType :=
  Reader.code ValueType.ofByte? .unknownValueType

/-- Reads an immediate of a shape. -/
def ImmediateShape.read : ImmediateShape → Reader Immediate
  | byte => return .byte (← Reader.byte)
  | index => return .index (← Leb128.readUInt32)
  | int32 => return .int32 (← Leb128.readInt32)
  | int64 => return .int64 (← Leb128.readInt64)
  | float32 => return .float32 (← Reader.word32)
  | float64 => return .float64 (← Reader.word64)
  | blockType => return .blockType (← Reader.valueType)
  | branchTable => return .branchTable (← Reader.counted Leb128.readUInt32) (← Leb128.readUInt32)
  | callIndirect => return .callIndirect (← Leb128.readUInt32) (← Reader.byte)
  | memory => return .memory (← Leb128.readUInt32) (← Leb128.readUInt32)

def Immediate.write : Immediate → Writing
  | byte value => return [value]
  | index value => return uint32 value
  | int32 value => return WasmGas.int32 value
  | int64 value => return WasmGas.int64 value
  | float32 bits => return word32 bits
  | float64 bits => return word64 bits
  | blockType type => return [type.toByte]
  | branchTable targets default => do
    let labels ← Writing.counted "br_table" (fun target => return uint32 target) targets
    return labels ++ uint32 default
  | callIndirect typeIndex reserved => return uint32 typeIndex ++ [reserved]
  | memory flags offset => return uint32 flags ++ uint32 offset

/-- Reads the immediate of an operation, if it has one. -/
def Operation.readImmediate (operation : Operation) : Reader (Option Immediate) :=
  match operation.shape? with
  | some shape => return some (← shape.read)
  | none => return none

namespace Instruction

def read : Reader Instruction := do
  let operation ← Reader.code Operation.ofOpcode? .unknownOpcode
  return ⟨operation.name, operation.qualifier, ← operation.readImmediate⟩

/-- Writes the immediate of an instruction if it is of the shape that is asked for. -/
def writeImmediate (instruction : Instruction) (shape? : Option ImmediateShape) : Writing :=
  match instruction.immediate with
  | some immediate =>
    if shape? = some immediate.shape then immediate.write
    else throw (.malformedImmediate instruction.mnemonic shape?)
  | none =>
    if shape? = none then return []
    else throw (.malformedImmediate instruction.mnemonic shape?)

def write (instruction : Instruction) : Writing :=
  match instruction.operation? with
  | some operation => do
    let immediate ← instruction.writeImmediate operation.shape?
    return operation.opcode :: immediate
  | none => throw (.unknownInstruction instruction.mnemonic)

end Instruction

/-- The opcode of the `end` that closes an initializer. -/
def endOpcode : UInt8 := 0x0b

/-- A single instruction and the `end` after it. -/
def Reader.initializer : Reader Instruction := do
  let instruction ← Instruction.read
  let start ← Reader.offset
  let closing ← Reader.byte
  if closing = endOpcode then return instruction else throw (.unterminatedInitializer start)

def Writing.initializer (instruction : Instruction) : Writing := do
  let content ← instruction.write
  return content ++ [endOpcode]

end WasmGas

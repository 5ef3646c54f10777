import WasmGas.Module.ValueType

/-! # Instructions

An instruction is a base name, an optional qualifier and an optional immediate.
Nothing ties the three together here: which combinations the binary format has
is the matter of the opcode table, so a value of `Instruction` may also be one
that cannot be written.
-/

namespace WasmGas

/-- The ways in which the bytes after an opcode can be laid out. -/
inductive ImmediateShape where
  | byte
  | index
  | int32
  | int64
  | float32
  | float64
  | blockType
  | branchTable
  | callIndirect
  | memory
  deriving DecidableEq, Repr

/-- The word for a shape in messages. -/
def ImmediateShape.name : ImmediateShape → String
  | byte => "varuint1"
  | index => "varuint32"
  | int32 => "varint32"
  | int64 => "varint64"
  | float32 => "uint32"
  | float64 => "uint64"
  | blockType => "block_type"
  | branchTable => "br_table"
  | callIndirect => "call_indirect"
  | memory => "memory_immediate"

/-- What follows an opcode. Floats are kept as their bit patterns, so that a
not-a-number keeps its payload. -/
inductive Immediate where
  | byte (value : UInt8)
  | index (value : UInt32)
  | int32 (value : Int32)
  | int64 (value : Int64)
  | float32 (bits : UInt32)
  | float64 (bits : UInt64)
  | blockType (type : ValueType)
  | branchTable (targets : List UInt32) (default : UInt32)
  | callIndirect (typeIndex : UInt32) (reserved : UInt8)
  | memory (flags offset : UInt32)
  deriving DecidableEq, Repr

def Immediate.shape : Immediate → ImmediateShape
  | byte _ => .byte
  | index _ => .index
  | int32 _ => .int32
  | int64 _ => .int64
  | float32 _ => .float32
  | float64 _ => .float64
  | blockType _ => .blockType
  | branchTable _ _ => .branchTable
  | callIndirect _ _ => .callIndirect
  | memory _ _ => .memory

/-- A base name as `add` or `const`, with the qualifier before its dot. -/
structure Instruction where
  name : String
  qualifier : Option Qualifier
  immediate : Option Immediate
  deriving DecidableEq, Repr

namespace Instruction

/-- The name with its qualifier, as `i32.add`. -/
def mnemonic (instruction : Instruction) : String :=
  match instruction.qualifier with
  | some qualifier => qualifier.name ++ "." ++ instruction.name
  | none => instruction.name

def isCall (instruction : Instruction) : Bool :=
  instruction.name == "call"

/-- The function that a direct call names. -/
def callTarget? (instruction : Instruction) : Option UInt32 :=
  match instruction.immediate with
  | some (.index target) => if instruction.isCall then some target else none
  | _ => none

/-- The names after which control can have come from, or go to, elsewhere. -/
def branchNames : List String :=
  ["grow_memory", "end", "br", "br_table", "br_if", "if", "else", "return", "loop"]

def isBranch (instruction : Instruction) : Bool :=
  branchNames.contains instruction.name

end Instruction

end WasmGas

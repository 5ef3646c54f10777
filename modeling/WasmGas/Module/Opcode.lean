import WasmGas.Module.Instruction

/-! # The opcode table

Which bytes are opcodes, which mnemonics they stand for, and what immediate each
is followed by. One list holds the whole table; both look-ups search it.
-/

namespace WasmGas

/-- The layout of the immediate that the mnemonics with this base name have.
Only for `const` does the qualifier matter. -/
def immediateShape? (qualifier : Option Qualifier) (name : String) : Option ImmediateShape :=
  if name ∈ ["block", "loop", "if"] then some .blockType
  else if name ∈ ["br", "br_if", "call", "get", "set", "tee"] then some .index
  else if name = "br_table" then some .branchTable
  else if name = "call_indirect" then some .callIndirect
  else if name ∈ ["load", "load8_s", "load8_u", "load16_s", "load16_u", "load32_s", "load32_u",
      "store", "store8", "store16", "store32"] then some .memory
  else if name ∈ ["current_memory", "grow_memory"] then some .byte
  else if name = "const" then
    match qualifier with
    | some .i32 => some .int32
    | some .i64 => some .int64
    | some .f32 => some .float32
    | some .f64 => some .float64
    | _ => none
  else none

/-- A row of the opcode table. -/
structure Operation where
  opcode : UInt8
  qualifier : Option Qualifier
  name : String
  deriving DecidableEq, Repr

namespace Operation

def shape? (operation : Operation) : Option ImmediateShape :=
  immediateShape? operation.qualifier operation.name

/-- Consecutive opcodes whose mnemonics share a qualifier. -/
structure Group where
  first : UInt8
  qualifier : Option Qualifier
  names : List String

/-- The rows of a group, numbered upwards from its first opcode. -/
def Group.rows (group : Group) : List Operation :=
  number group.first group.names
where
  number (opcode : UInt8) : List String → List Operation
    | [] => []
    | name :: names => ⟨opcode, group.qualifier, name⟩ :: number (opcode + 1) names

def groups : List Group :=
  [⟨0x00, none, ["unreachable", "nop", "block", "loop", "if", "else"]⟩,
    ⟨0x0b, none, ["end", "br", "br_if", "br_table", "return", "call", "call_indirect"]⟩,
    ⟨0x1a, none, ["drop", "select"]⟩,
    ⟨0x20, some .local, ["get", "set", "tee"]⟩,
    ⟨0x23, some .global, ["get", "set"]⟩,
    ⟨0x28, some .i32, ["load"]⟩,
    ⟨0x29, some .i64, ["load"]⟩,
    ⟨0x2a, some .f32, ["load"]⟩,
    ⟨0x2b, some .f64, ["load"]⟩,
    ⟨0x2c, some .i32, ["load8_s", "load8_u", "load16_s", "load16_u"]⟩,
    ⟨0x30, some .i64, ["load8_s", "load8_u", "load16_s", "load16_u", "load32_s", "load32_u"]⟩,
    ⟨0x36, some .i32, ["store"]⟩,
    ⟨0x37, some .i64, ["store"]⟩,
    ⟨0x38, some .f32, ["store"]⟩,
    ⟨0x39, some .f64, ["store"]⟩,
    ⟨0x3a, some .i32, ["store8", "store16"]⟩,
    ⟨0x3c, some .i64, ["store8", "store16", "store32"]⟩,
    ⟨0x3f, none, ["current_memory", "grow_memory"]⟩,
    ⟨0x41, some .i32, ["const"]⟩,
    ⟨0x42, some .i64, ["const"]⟩,
    ⟨0x43, some .f32, ["const"]⟩,
    ⟨0x44, some .f64, ["const"]⟩,
    ⟨0x45, some .i32, ["eqz", "eq", "ne", "lt_s", "lt_u", "gt_s", "gt_u", "le_s", "le_u",
      "ge_s", "ge_u"]⟩,
    ⟨0x50, some .i64, ["eqz", "eq", "ne", "lt_s", "lt_u", "gt_s", "gt_u", "le_s", "le_u",
      "ge_s", "ge_u"]⟩,
    ⟨0x5b, some .f32, ["eq", "ne", "lt", "gt", "le", "ge"]⟩,
    ⟨0x61, some .f64, ["eq", "ne", "lt", "gt", "le", "ge"]⟩,
    ⟨0x67, some .i32, ["clz", "ctz", "popcnt", "add", "sub", "mul", "div_s", "div_u", "rem_s",
      "rem_u", "and", "or", "xor", "shl", "shr_s", "shr_u", "rotl", "rotr"]⟩,
    ⟨0x79, some .i64, ["clz", "ctz", "popcnt", "add", "sub", "mul", "div_s", "div_u", "rem_s",
      "rem_u", "and", "or", "xor", "shl", "shr_s", "shr_u", "rotl", "rotr"]⟩,
    ⟨0x8b, some .f32, ["abs", "neg", "ceil", "floor", "trunc", "nearest", "sqrt", "add", "sub",
      "mul", "div", "min", "max", "copysign"]⟩,
    ⟨0x99, some .f64, ["abs", "neg", "ceil", "floor", "trunc", "nearest", "sqrt", "add", "sub",
      "mul", "div", "min", "max", "copysign"]⟩,
    ⟨0xa7, some .i32, ["wrap_i64", "trunc_f32_s", "trunc_f32_u", "trunc_f64_s", "trunc_f64_u"]⟩,
    ⟨0xac, some .i64, ["extend_i32_s", "extend_i32_u", "trunc_f32_s", "trunc_f32_u",
      "trunc_f64_s", "trunc_f64_u"]⟩,
    ⟨0xb2, some .f32, ["convert_i32_s", "convert_i32_u", "convert_i64_s", "convert_i64_u",
      "demote_f64"]⟩,
    ⟨0xb7, some .f64, ["convert_i32_s", "convert_i32_u", "convert_i64_s", "convert_i64_u",
      "promote_f32"]⟩,
    ⟨0xbc, some .i32, ["reinterpret_f32"]⟩,
    ⟨0xbd, some .i64, ["reinterpret_f64"]⟩,
    ⟨0xbe, some .f32, ["reinterpret_i32"]⟩,
    ⟨0xbf, some .f64, ["reinterpret_i64"]⟩]

/-- Every operation, in the order of opcodes. -/
def all : List Operation := groups.flatMap Group.rows

def ofOpcode? (opcode : UInt8) : Option Operation :=
  all.find? (·.opcode == opcode)

def ofMnemonic? (qualifier : Option Qualifier) (name : String) : Option Operation :=
  all.find? fun operation => operation.qualifier == qualifier && operation.name == name

end Operation

/-- The row of an instruction in the opcode table. -/
def Instruction.operation? (instruction : Instruction) : Option Operation :=
  Operation.ofMnemonic? instruction.qualifier instruction.name

end WasmGas

import WasmGas.Float.Nearest
import WasmGas.Module.Opcode
import WasmGas.Text.Words

/-! # Instructions from text

Words are taken one after another: a mnemonic of the opcode table, then as many
operands as its immediate needs. A block type may be left out, and a branch table
takes every label that follows.
-/

namespace WasmGas

inductive AssembleError where
  | unknownMnemonic (mnemonic : String)
  | missingOperand (mnemonic : String)
  | invalidOperand (mnemonic word : String)
  deriving DecidableEq, Repr

def AssembleError.message : AssembleError → String
  | unknownMnemonic mnemonic => s!"unknown mnemonic `{mnemonic}`"
  | missingOperand mnemonic => s!"`{mnemonic}` is missing an operand"
  | invalidOperand mnemonic word => s!"`{mnemonic}` has an invalid operand `{word}`"

namespace Assembly

/-- A step that takes words off the front of a list of them. -/
abbrev Taker (α : Type) := EStateM AssembleError (List (List Char)) α

/-- One operand of the instruction with some mnemonic. -/
def operand (mnemonic : String) (read? : List Char → Option α) : Taker α := do
  match ← get with
  | [] => throw (.missingOperand mnemonic)
  | word :: rest =>
    set rest
    match read? word with
    | some a => return a
    | none => throw (.invalidOperand mnemonic (String.ofList word))

def uint8? (word : List Char) : Option UInt8 :=
  (naturalBelow? UInt8.size word).map UInt8.ofNat

def uint32? (word : List Char) : Option UInt32 :=
  (naturalBelow? UInt32.size word).map UInt32.ofNat

def int32? (word : List Char) : Option Int32 :=
  (integerWithin? 0x80000000 word).map Int32.ofInt

def int64? (word : List Char) : Option Int64 :=
  (integerWithin? 0x8000000000000000 word).map Int64.ofInt

def float32? (word : List Char) : Option UInt32 :=
  (FloatFormat.binary32.ofText? word).map UInt32.ofNat

def float64? (word : List Char) : Option UInt64 :=
  (FloatFormat.binary64.ofText? word).map UInt64.ofNat

/-- The type that the next word names, or else the empty type and no word taken. -/
def blockType : Taker ValueType := fun words =>
  match words with
  | [] => .ok .empty []
  | word :: rest =>
    match ValueType.ofName? (String.ofList word) with
    | some type => .ok type rest
    | none => .ok .empty (word :: rest)

/-- The labels at the start of some words, as many as there are. -/
def leadingLabels : List (List Char) → List UInt32 × List (List Char)
  | [] => ([], [])
  | word :: rest =>
    match uint32? word with
    | some label =>
      let (others, after) := leadingLabels rest
      (label :: others, after)
    | none => ([], word :: rest)

def labels : Taker (List UInt32) := fun words =>
  let (targets, rest) := leadingLabels words
  .ok targets rest

/-- The operands of a shape. -/
def immediate (mnemonic : String) : ImmediateShape → Taker Immediate
  | .byte => return .byte (← operand mnemonic uint8?)
  | .index => return .index (← operand mnemonic uint32?)
  | .int32 => return .int32 (← operand mnemonic int32?)
  | .int64 => return .int64 (← operand mnemonic int64?)
  | .float32 => return .float32 (← operand mnemonic float32?)
  | .float64 => return .float64 (← operand mnemonic float64?)
  | .blockType => return .blockType (← blockType)
  | .branchTable => do
    let targets ← labels
    match targets.getLast? with
    | some default => return .branchTable targets.dropLast default
    | none => throw (.missingOperand mnemonic)
  | .callIndirect => return .callIndirect (← operand mnemonic uint32?) 0
  | .memory => return .memory (← operand mnemonic uint32?) (← operand mnemonic uint32?)

/-- The row of the opcode table that a mnemonic names. What stands before its first dot
has to be a qualifier. -/
def operation? (mnemonic : List Char) : Option Operation :=
  match mnemonic.dropWhile (· != '.') with
  | [] => Operation.ofMnemonic? none (String.ofList mnemonic)
  | _ :: name => do
    let qualifier ← Qualifier.ofName? (String.ofList (mnemonic.takeWhile (· != '.')))
    Operation.ofMnemonic? (some qualifier) (String.ofList name)

/-- The instruction that a mnemonic begins. -/
def instruction (word : List Char) : Taker Instruction := do
  let mnemonic := String.ofList word
  match operation? word with
  | none => throw (.unknownMnemonic mnemonic)
  | some operation =>
    match operation.shape? with
    | none => return ⟨operation.name, operation.qualifier, none⟩
    | some shape =>
      return ⟨operation.name, operation.qualifier, some (← immediate mnemonic shape)⟩

/-- Takes instructions until no words are left, at most `limit` of them. -/
def instructionsWithin : (limit : Nat) → Taker (List Instruction)
  | 0 => return []
  | limit + 1 => do
    match ← get with
    | [] => return []
    | word :: rest =>
      set rest
      let first ← instruction word
      return first :: (← instructionsWithin limit)

/-- The instructions that some words stand for. There are no more of them than words. -/
def instructions (words : List (List Char)) : Except AssembleError (List Instruction) :=
  match instructionsWithin words.length words with
  | .ok code _ => .ok code
  | .error fault _ => .error fault

end Assembly

/-- The instructions that a text stands for. -/
def assemble (text : String) : Except AssembleError (List Instruction) :=
  Assembly.instructions (words text.toList)

end WasmGas

import WasmGas.Float.Shortest
import WasmGas.Module.Instruction
import WasmGas.Text.Integer

/-! # Instructions as text

An instruction is written as its mnemonic and the words of its immediate, with single
spaces between them.
-/

namespace WasmGas

/-- The words that an immediate is written with. The reserved byte of an indirect call
is not written. -/
def Immediate.words : Immediate → List (List Char)
  | byte value => [naturalText value.toNat]
  | index value => [naturalText value.toNat]
  | int32 value => [integerText value.toInt]
  | int64 value => [integerText value.toInt]
  | float32 bits => [FloatFormat.binary32.text bits.toNat]
  | float64 bits => [FloatFormat.binary64.text bits.toNat]
  | blockType type => [type.name.toList]
  | branchTable targets default => (targets ++ [default]).map (naturalText ·.toNat)
  | callIndirect typeIndex _ => [naturalText typeIndex.toNat]
  | memory flags offset => [naturalText flags.toNat, naturalText offset.toNat]

namespace Instruction

/-- The mnemonic and the words of the immediate. -/
def words (instruction : Instruction) : List (List Char) :=
  instruction.mnemonic.toList :: (instruction.immediate.map Immediate.words).getD []

def text (instruction : Instruction) : String :=
  String.ofList ([' '].intercalate instruction.words)

end Instruction

end WasmGas

import WasmGas.Module.Section
import WasmGas.Price.Tariff

/-! # What a module is charged for

Signatures, groups of locals and instructions have prices, each in a part of the tariff
of its own.
-/

namespace WasmGas

/-- What has a price in a tariff that inherits some fallback. -/
class Priced (α : Type) where
  price : Tariff → (inherited : Gas) → α → Gas

instance : Priced Signature where
  price tariff inherited signature :=
    tariff.priceRecord
      [("form", .name signature.form.name),
        ("params", .names (signature.params.map (·.name))),
        ("returns", .names (signature.returns.map (·.name)))]
      inherited

/-- The number of locals in a group does not matter. -/
instance : Priced LocalGroup where
  price tariff inherited group :=
    tariff.priceRecord [("count", .scalar), ("type", .name group.type.name)] inherited

/-- An instruction is priced by its base name alone. -/
instance : Priced Instruction where
  price tariff inherited instruction := tariff.priceName instruction.name inherited

namespace Tariff

/-- What some things cost together. -/
def priceAll [Priced α] (tariff : Tariff) (items : List α) : Gas :=
  (items.map (Priced.price tariff 0)).sum

def signatures (tariff : Tariff) : Tariff := tariff.sub "type"

def locals (tariff : Tariff) : Tariff := Tariff.sub (tariff.sub "code") "locals"

def instructions (tariff : Tariff) : Tariff := Tariff.sub (tariff.sub "code") "code"

def signatureCost (tariff : Tariff) (signature : Signature) : Gas :=
  Priced.price tariff.signatures 0 signature

def localsCost (tariff : Tariff) (groups : List LocalGroup) : Gas :=
  tariff.locals.priceAll groups

def instructionCost (tariff : Tariff) (instruction : Instruction) : Gas :=
  Priced.price tariff.instructions 0 instruction

end Tariff

end WasmGas

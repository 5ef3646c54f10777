import WasmGas.Assembly.Assemble
import WasmGas.Module.Section
import WasmGas.Price.Gas

/-! # How to meter

Metering adds an imported function that is called with amounts of gas. The options say
under which names it is imported and as what type of number it takes the amount.
-/

namespace WasmGas

/-- The type of number that the metering function takes. -/
inductive Register where
  | i32
  | i64
  | f32
  | f64
  deriving DecidableEq, Repr

namespace Register

def all : List Register := [.i32, .i64, .f32, .f64]

def type : Register → ValueType
  | i32 => .i32
  | i64 => .i64
  | f32 => .f32
  | f64 => .f64

def name (register : Register) : String := register.type.name

def ofName? (word : String) : Option Register := all.find? (·.name == word)

/-- What to say of a word that names no register type. -/
def unknownMessage (word : String) : String :=
  s!"unknown register type `{word}` (expected i32, i64, f32 or f64)"

/-- Whether an amount can be passed. A float takes every amount, rounded. -/
def holds (register : Register) (cost : Gas) : Bool :=
  match register with
  | i32 => cost.units < 0x80000000
  | i64 => cost.units < 0x8000000000000000
  | f32 => true
  | f64 => true

end Register

structure MeteringOptions where
  module : String := "metering"
  field : String := "usegas"
  register : Register := .i64
  deriving DecidableEq, Repr

namespace MeteringOptions

/-- The name that the metering function gets among the debug names. -/
def functionName (options : MeteringOptions) : String := options.module ++ "." ++ options.field

/-- The signature of the metering function. -/
def signature (options : MeteringOptions) : Signature := ⟨.func, [options.register.type], []⟩

end MeteringOptions

inductive MeteringError where
  | conflictingImport (module field : String)
  /-- A body goes on after its last branch. -/
  | missingTerminator (function : UInt32)
  | bodyCountMismatch (functions bodies : Nat)
  | duplicateSection (kind : SectionKind)
  | unknownType (function typeIndex : UInt32)
  | costOverflow (cost : Gas) (register : Register)
  | assembly (fault : AssembleError)
  deriving DecidableEq, Repr

def MeteringError.message : MeteringError → String
  | conflictingImport module field =>
    s!"module already imports {module}.{field}; metering twice is not allowed"
  | missingTerminator function =>
    s!"function {function} ends without a branch-class instruction"
  | bodyCountMismatch functions bodies =>
    s!"{functions} function declaration(s) but {bodies} code bodies"
  | duplicateSection kind => s!"module has more than one {kind.name} section"
  | unknownType function typeIndex =>
    s!"function {function} references unknown type index {typeIndex}"
  | costOverflow cost register =>
    s!"segment cost {cost.units} cannot be represented as an {register.name} constant"
  | assembly fault => s!"failed to assemble metering call: {fault.message}"

end WasmGas

import WasmGas.Metering.Charge
import WasmGas.Metering.Renumber
import WasmGas.Module.Basic

/-! # Metering a module

The metering function becomes the last imported function, every other function is
renumbered, and then each body is charged for. The pass refuses a module that imports
the function already, whose functions and bodies do not pair up, or whose functions have
no known type.
-/

namespace WasmGas

/-- Changes the first section that can be changed. -/
def updateFirst? (change? : Section → Option Section) : List Section → Option (List Section)
  | [] => none
  | head :: tail =>
    match change? head with
    | some changed => some (changed :: tail)
    | none => (updateFirst? change? tail).map (head :: ·)

namespace Module

/-- Adds a signature at the end of the first type section, or in a new one. -/
def addSignature (m : Module) (signature : Signature) : Module :=
  let append? (s : Section) : Option Section :=
    s.signatures?.map fun entries => .types (entries ++ [signature])
  match updateFirst? append? m.sections with
  | some sections => { m with sections }
  | none => m.insert (.types [signature])

/-- Adds an import at the end of the first import section, or in a new one. -/
def addImport (m : Module) (entry : ImportEntry) : Module :=
  let append? (s : Section) : Option Section :=
    s.imports?.map fun entries => .imports (entries ++ [entry])
  match updateFirst? append? m.sections with
  | some sections => { m with sections }
  | none => m.insert (.imports [entry])

/-- The index that an added signature gets. -/
def nextTypeIndex (m : Module) : UInt32 := UInt32.ofNat (m.signatures?.getD []).length

/-- The import that the metering function would stand beside under the same names. -/
def conflict? (m : Module) (options : MeteringOptions) : Option ImportEntry :=
  (m.imports?.getD []).find? fun entry =>
    entry.module == options.module && entry.field == options.field

/-- The module with the metering function among its imports. -/
def withMeteringImport (m : Module) (options : MeteringOptions) : Module :=
  let entry : ImportEntry := ⟨options.module, options.field, .function m.nextTypeIndex⟩
  ((m.addSignature options.signature).addImport entry).renumber m.importedFunctions
    options.functionName

/-- Refuses a kind of section that comes more than once. -/
def checkSingle (m : Module) (kind : SectionKind) : Except MeteringError Unit :=
  if 1 < m.count kind then throw (.duplicateSection kind) else return ()

/-- Refuses a code section that has not one body for each declared function. -/
def checkBodies (m : Module) : Except MeteringError Unit :=
  let functions := (m.typeIndices?.getD []).length
  let bodies := (m.bodies?.getD []).length
  if bodies ≠ functions ∧ m.has .code then throw (.bodyCountMismatch functions bodies)
  else return ()

end Module

/-- What the signature of each function costs, by its type index. -/
def entryCosts (tariff : Tariff) (signatures : List Signature) :
    (function : UInt32) → List UInt32 → Except MeteringError (List Gas)
  | _, [] => return []
  | function, typeIndex :: others =>
    match signatures[typeIndex.toNat]? with
    | some signature => do
      let rest ← entryCosts tariff signatures (function + 1) others
      return tariff.signatureCost signature :: rest
    | none => throw (.unknownType function typeIndex)

/-- What entering each defined function costs but for its locals. The functions are
numbered from `first` on. -/
def Module.entryCosts (m : Module) (tariff : Tariff) (first : UInt32) :
    Except MeteringError (List Gas) := do
  m.checkSingle .functions
  m.checkSingle .code
  m.checkBodies
  WasmGas.entryCosts tariff (m.signatures?.getD []) first (m.typeIndices?.getD [])

namespace Meter

variable (meter : Meter)

/-- Charges for a body. -/
def meterBody (callCost entry : Gas) (function : UInt32) (body : FunctionBody) :
    Except MeteringError MeteredCode :=
  meter.meterCode callCost (entry + meter.tariff.localsCost body.locals) function body.code

/-- Charges for bodies, as many as there are entry costs, and adds up the gas. -/
def meterBodies (callCost : Gas) : (function : UInt32) → List Gas → List FunctionBody →
    Except MeteringError (List FunctionBody × Gas)
  | function, entry :: entries, body :: bodies => do
    let metered ← meter.meterBody callCost entry function body
    let (others, gas) ← meterBodies callCost (function + 1) entries bodies
    return ({ body with code := metered.code } :: others, metered.gas + gas)
  | _, _, bodies => return (bodies, 0)

/-- Charges for the bodies of code sections and keeps the other sections. -/
def meterSections (callCost : Gas) (first : UInt32) (entries : List Gas) :
    List Section → Except MeteringError (List Section × Gas)
  | [] => return ([], 0)
  | .code bodies :: rest => do
    let (metered, gas) ← meter.meterBodies callCost first entries bodies
    let (others, more) ← meterSections callCost first entries rest
    return (.code metered :: others, gas + more)
  | other :: rest => do
    let (others, gas) ← meterSections callCost first entries rest
    return (other :: others, gas)

end Meter

/-- Charges for every body of a module that the metering function was added to as the
function of the meter. -/
def Meter.meterModule (meter : Meter) (imported : Module) :
    Except MeteringError (Module × Gas) := do
  let callCost ← meter.callCost
  let first := meter.function + 1
  let entries ← imported.entryCosts meter.tariff first
  let (sections, gas) ← meter.meterSections callCost first entries imported.sections
  return ({ imported with sections }, gas)

/-- The module with its metering calls, and the gas that they charge together. -/
def Module.meter (m : Module) (tariff : Tariff) (options : MeteringOptions) :
    Except MeteringError (Module × Gas) :=
  match m.conflict? options with
  | some entry => throw (.conflictingImport entry.module entry.field)
  | none =>
    let meter : Meter := ⟨tariff, options.register, m.importedFunctions⟩
    meter.meterModule (m.withMeteringImport options)

end WasmGas

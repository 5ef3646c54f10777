import WasmGas.Module.Basic

/-! # Renumbering functions

A function that is added to the imports moves every function from its index on up by
one. Renumbering changes each place that holds the index of a function: exports,
elements, the start, direct calls and debug names. It changes nothing else but that the
new function is entered among the debug names.
-/

namespace WasmGas

/-- The index that a function has after one was added at `insertion`. The greatest
index stays. -/
def shiftIndex (insertion index : UInt32) : UInt32 :=
  if index < insertion then index
  else if index.toNat + 1 < UInt32.size then index + 1
  else index

variable (insertion : UInt32)

def Instruction.renumber (instruction : Instruction) : Instruction :=
  match instruction.callTarget? with
  | some target => { instruction with immediate := some (.index (shiftIndex insertion target)) }
  | none => instruction

def FunctionBody.renumber (body : FunctionBody) : FunctionBody :=
  { body with code := body.code.map (·.renumber insertion) }

def ExportEntry.renumber (entry : ExportEntry) : ExportEntry :=
  if entry.kind = .function then { entry with index := shiftIndex insertion entry.index }
  else entry

def ElementEntry.renumber (entry : ElementEntry) : ElementEntry :=
  { entry with functions := entry.functions.map (shiftIndex insertion) }

def NameEntry.renumber (entry : NameEntry) : NameEntry :=
  { entry with index := shiftIndex insertion entry.index }

def LocalNames.renumber (group : LocalNames) : LocalNames :=
  { group with function := shiftIndex insertion group.function }

/-- Enters the name of the added function before the first entry that moves. -/
def renumberNames (name : String) (entries : List NameEntry) : List NameEntry :=
  entries.takeWhile (·.index < insertion) ++
    ⟨insertion, name⟩ :: (entries.dropWhile (·.index < insertion)).map (·.renumber insertion)

def NameSubsection.renumber (name : String) : NameSubsection → NameSubsection
  | functionNames entries => .functionNames (renumberNames insertion name entries)
  | localNames groups => .localNames (groups.map (·.renumber insertion))
  | other => other

def Section.renumber (name : String) : Section → Section
  | exports entries => .exports (entries.map (·.renumber insertion))
  | elements entries => .elements (entries.map (·.renumber insertion))
  | start index => .start (shiftIndex insertion index)
  | code bodies => .code (bodies.map (·.renumber insertion))
  | custom title (.names subsections) =>
    .custom title (.names (subsections.map (·.renumber insertion name)))
  | other => other

/-- The module after a function of some name was added at `insertion`. -/
def Module.renumber (name : String) (m : Module) : Module :=
  { m with sections := m.sections.map (·.renumber insertion name) }

end WasmGas

import WasmGas.Module.Section

/-! # Modules

A module is a preamble and a list of sections. The binary format lets a kind of
section come more than once; a look-up by kind answers for the first of its kind.
-/

namespace WasmGas

/-- The eight bytes before the sections, as two little-endian words. They are
kept, not checked. -/
structure Preamble where
  magic : UInt32 := 0x6d736100
  version : UInt32 := 1
  deriving DecidableEq, Repr

structure Module where
  preamble : Preamble := {}
  sections : List Section := []
  deriving DecidableEq, Repr

namespace Section

def signatures? : Section → Option (List Signature)
  | types entries => some entries
  | _ => none

def imports? : Section → Option (List ImportEntry)
  | imports entries => some entries
  | _ => none

def typeIndices? : Section → Option (List UInt32)
  | functions typeIndices => some typeIndices
  | _ => none

def bodies? : Section → Option (List FunctionBody)
  | code bodies => some bodies
  | _ => none

/-- Whether a section has a rank above that of another kind. Never so when one of
the two is custom. -/
def ranksAbove (later : Section) (kind : SectionKind) : Bool :=
  match later.kind.rank?, kind.rank? with
  | some above, some below => decide (below < above)
  | _, _ => false

/-- Puts a section before the first one of higher rank, or at the end. -/
def insertInto (added : Section) : List Section → List Section
  | [] => [added]
  | head :: tail =>
    if head.ranksAbove added.kind then added :: head :: tail
    else head :: added.insertInto tail

end Section

namespace Module

def signatures? (m : Module) : Option (List Signature) :=
  m.sections.findSome? Section.signatures?

def imports? (m : Module) : Option (List ImportEntry) :=
  m.sections.findSome? Section.imports?

def typeIndices? (m : Module) : Option (List UInt32) :=
  m.sections.findSome? Section.typeIndices?

def bodies? (m : Module) : Option (List FunctionBody) :=
  m.sections.findSome? Section.bodies?

/-- The number of imported functions. They come first in the function space. -/
def importedFunctions (m : Module) : UInt32 :=
  UInt32.ofNat ((m.imports?.getD []).countP (·.isFunction))

def has (m : Module) (kind : SectionKind) : Bool :=
  m.sections.any (·.kind == kind)

def count (m : Module) (kind : SectionKind) : Nat :=
  m.sections.countP (·.kind == kind)

/-- Adds a section at its canonical place. -/
def insert (m : Module) (added : Section) : Module :=
  { m with sections := added.insertInto m.sections }

end Module

end WasmGas

import WasmGas.Module.Instruction

/-! # Sections and their entries

The abstract content of a module. The kind of a section is told by the variant,
so a section cannot hold the entries of another kind.
-/

namespace WasmGas

structure Signature where
  form : ValueType
  params : List ValueType
  returns : List ValueType
  deriving DecidableEq, Repr

/-- The size bounds of a memory or a table. -/
structure Limits where
  initial : UInt32
  maximum : Option UInt32
  deriving DecidableEq, Repr

structure TableType where
  element : ValueType
  limits : Limits
  deriving DecidableEq, Repr

structure GlobalType where
  content : ValueType
  mutable : Bool
  deriving DecidableEq, Repr

/-- What an import stands for; a function is given by its type index. -/
inductive ImportDescriptor where
  | function (typeIndex : UInt32)
  | table (type : TableType)
  | memory (limits : Limits)
  | global (type : GlobalType)
  deriving DecidableEq, Repr

def ImportDescriptor.kind : ImportDescriptor → ExternalKind
  | function _ => .function
  | table _ => .table
  | memory _ => .memory
  | global _ => .global

structure ImportEntry where
  module : String
  field : String
  descriptor : ImportDescriptor
  deriving DecidableEq, Repr

def ImportEntry.isFunction (entry : ImportEntry) : Bool :=
  entry.descriptor.kind == .function

/-- The initializer is a single instruction; the `end` after it is implied. -/
structure GlobalEntry where
  type : GlobalType
  init : Instruction
  deriving DecidableEq, Repr

structure ExportEntry where
  field : String
  kind : ExternalKind
  index : UInt32
  deriving DecidableEq, Repr

/-- Functions to be put into a table from an offset on. -/
structure ElementEntry where
  table : UInt32
  offset : Instruction
  functions : List UInt32
  deriving DecidableEq, Repr

/-- Consecutive locals of one type. -/
structure LocalGroup where
  count : UInt32
  type : ValueType
  deriving DecidableEq, Repr

structure FunctionBody where
  locals : List LocalGroup
  code : List Instruction
  deriving DecidableEq, Repr

structure DataSegment where
  memory : UInt32
  offset : Instruction
  bytes : List UInt8
  deriving DecidableEq, Repr

/-- A debug name with the index of what it names. -/
structure NameEntry where
  index : UInt32
  name : String
  deriving DecidableEq, Repr

/-- The names of the locals of one function. -/
structure LocalNames where
  function : UInt32
  names : List NameEntry
  deriving DecidableEq, Repr

/-- A part of the `name` section; kinds without a known meaning keep their bytes. -/
inductive NameSubsection where
  | moduleName (name : String)
  | functionNames (names : List NameEntry)
  | localNames (groups : List LocalNames)
  | unknown (kind : UInt8) (payload : List UInt8)
  deriving DecidableEq, Repr

def NameSubsection.kind : NameSubsection → UInt8
  | moduleName _ => 0
  | functionNames _ => 1
  | localNames _ => 2
  | unknown kind _ => kind

inductive CustomPayload where
  | raw (bytes : List UInt8)
  | names (subsections : List NameSubsection)
  deriving DecidableEq, Repr

inductive SectionKind where
  | custom
  | types
  | imports
  | functions
  | tables
  | memories
  | globals
  | exports
  | start
  | elements
  | code
  | data
  | dataCount
  deriving DecidableEq, Repr

namespace SectionKind

/-- Every kind, in the order of the bytes that stand for it. -/
def all : List SectionKind :=
  [.custom, .types, .imports, .functions, .tables, .memories, .globals, .exports, .start,
    .elements, .code, .data, .dataCount]

def toByte : SectionKind → UInt8
  | custom => 0
  | types => 1
  | imports => 2
  | functions => 3
  | tables => 4
  | memories => 5
  | globals => 6
  | exports => 7
  | start => 8
  | elements => 9
  | code => 10
  | data => 11
  | dataCount => 12

def ofByte? (byte : UInt8) : Option SectionKind :=
  all.find? (·.toByte == byte)

def name : SectionKind → String
  | custom => "custom"
  | types => "type"
  | imports => "import"
  | functions => "function"
  | tables => "table"
  | memories => "memory"
  | globals => "global"
  | exports => "export"
  | start => "start"
  | elements => "element"
  | code => "code"
  | data => "data"
  | dataCount => "data_count"

/-- The place of a kind in the canonical order. The data count stands before the
code although its byte is larger; a custom section may stand anywhere. -/
def rank? : SectionKind → Option Nat
  | custom => none
  | types => some 1
  | imports => some 2
  | functions => some 3
  | tables => some 4
  | memories => some 5
  | globals => some 6
  | exports => some 7
  | start => some 8
  | elements => some 9
  | dataCount => some 10
  | code => some 11
  | data => some 12

/-- Each kind of section has its own byte. -/
theorem ofByte?_toByte (kind : SectionKind) : ofByte? kind.toByte = some kind := by
  cases kind <;> rfl

/-- A byte is that of one kind of section at most. -/
theorem ofByte?_eq_some_iff {byte : UInt8} {kind : SectionKind} :
    ofByte? byte = some kind ↔ byte = kind.toByte := by
  constructor
  · intro found
    have same := List.find?_some found
    simpa using (eq_of_beq same).symm
  · rintro rfl
    exact ofByte?_toByte kind

end SectionKind

inductive Section where
  | custom (name : String) (payload : CustomPayload)
  | types (entries : List Signature)
  | imports (entries : List ImportEntry)
  | functions (typeIndices : List UInt32)
  | tables (entries : List TableType)
  | memories (entries : List Limits)
  | globals (entries : List GlobalEntry)
  | exports (entries : List ExportEntry)
  | start (index : UInt32)
  | elements (entries : List ElementEntry)
  | code (bodies : List FunctionBody)
  | data (segments : List DataSegment)
  | dataCount (count : UInt32)
  deriving DecidableEq, Repr

namespace Section

def kind : Section → SectionKind
  | custom _ _ => .custom
  | types _ => .types
  | imports _ => .imports
  | functions _ => .functions
  | tables _ => .tables
  | memories _ => .memories
  | globals _ => .globals
  | exports _ => .exports
  | start _ => .start
  | elements _ => .elements
  | code _ => .code
  | data _ => .data
  | dataCount _ => .dataCount

/-- How many entries a section shows: the bytes of a raw custom payload, one for
a section that holds a single value. -/
def entryCount : Section → Nat
  | custom _ (.raw bytes) => bytes.length
  | custom _ (.names subsections) => subsections.length
  | types entries => entries.length
  | imports entries => entries.length
  | functions typeIndices => typeIndices.length
  | tables entries => entries.length
  | memories entries => entries.length
  | globals entries => entries.length
  | exports entries => entries.length
  | start _ => 1
  | elements entries => entries.length
  | code bodies => bodies.length
  | data segments => segments.length
  | dataCount _ => 1

end Section

end WasmGas

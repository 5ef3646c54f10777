import WasmGas.Module.Section
import WasmGas.Wire.Instruction

/-! # Section entries on the wire

For each kind of entry how it is read and how it is written, field by field in the
same order.
-/

namespace WasmGas

def Signature.read : Reader Signature :=
  return ⟨← Reader.valueType, ← Reader.counted Reader.valueType, ← Reader.counted Reader.valueType⟩

def Signature.write (signature : Signature) : Writing := do
  let params ← Writing.counted "type" (fun type => return [type.toByte]) signature.params
  let returns ← Writing.counted "type" (fun type => return [type.toByte]) signature.returns
  return signature.form.toByte :: params ++ returns

/-- Flags tell whether there is a maximum. The initial size is read before the flags
are judged. -/
def Limits.read : Reader Limits := do
  let start ← Reader.offset
  let flags ← Leb128.readUInt32
  let initial ← Leb128.readUInt32
  if flags = 0 then return ⟨initial, none⟩
  else if flags = 1 then return ⟨initial, some (← Leb128.readUInt32)⟩
  else throw (.unsupportedLimits flags start)

def Limits.write (limits : Limits) : Bytes :=
  match limits.maximum with
  | none => uint32 0 ++ uint32 limits.initial
  | some maximum => uint32 1 ++ uint32 limits.initial ++ uint32 maximum

def TableType.read : Reader TableType :=
  return ⟨← Reader.valueType, ← Limits.read⟩

def TableType.write (type : TableType) : Bytes :=
  type.element.toByte :: type.limits.write

/-- What a mutability flag says. -/
def mutabilityOfByte? (byte : UInt8) : Option Bool :=
  if byte = 0 then some false else if byte = 1 then some true else none

def mutabilityToByte (mutable : Bool) : UInt8 :=
  if mutable then 1 else 0

def GlobalType.read : Reader GlobalType :=
  return ⟨← Reader.valueType, ← Reader.code mutabilityOfByte? .invalidMutability⟩

def GlobalType.write (type : GlobalType) : Bytes :=
  [type.content.toByte, mutabilityToByte type.mutable]

def Reader.externalKind : Reader ExternalKind :=
  Reader.code ExternalKind.ofByte? .unknownExternalKind

/-- Reads what an import of some kind stands for. -/
def ExternalKind.readDescriptor : ExternalKind → Reader ImportDescriptor
  | function => return .function (← Leb128.readUInt32)
  | table => return .table (← TableType.read)
  | memory => return .memory (← Limits.read)
  | global => return .global (← GlobalType.read)

def ImportDescriptor.write : ImportDescriptor → Bytes
  | function typeIndex => uint32 typeIndex
  | table type => type.write
  | memory limits => limits.write
  | global type => type.write

def ImportEntry.read : Reader ImportEntry := do
  let module ← Reader.name
  let field ← Reader.name
  let kind ← Reader.externalKind
  return ⟨module, field, ← kind.readDescriptor⟩

def ImportEntry.write (entry : ImportEntry) : Writing := do
  let module ← Writing.name entry.module
  let field ← Writing.name entry.field
  return module ++ field ++ entry.descriptor.kind.toByte :: entry.descriptor.write

def GlobalEntry.read : Reader GlobalEntry :=
  return ⟨← GlobalType.read, ← Reader.initializer⟩

def GlobalEntry.write (entry : GlobalEntry) : Writing := do
  let init ← Writing.initializer entry.init
  return entry.type.write ++ init

def ExportEntry.read : Reader ExportEntry :=
  return ⟨← Reader.name, ← Reader.externalKind, ← Leb128.readUInt32⟩

def ExportEntry.write (entry : ExportEntry) : Writing := do
  let field ← Writing.name entry.field
  return field ++ entry.kind.toByte :: uint32 entry.index

def ElementEntry.read : Reader ElementEntry :=
  return ⟨← Leb128.readUInt32, ← Reader.initializer, ← Reader.counted Leb128.readUInt32⟩

def ElementEntry.write (entry : ElementEntry) : Writing := do
  let offset ← Writing.initializer entry.offset
  let functions ← Writing.counted "element" (fun index => return uint32 index) entry.functions
  return uint32 entry.table ++ offset ++ functions

def LocalGroup.read : Reader LocalGroup :=
  return ⟨← Leb128.readUInt32, ← Reader.valueType⟩

def LocalGroup.write (group : LocalGroup) : Bytes :=
  uint32 group.count ++ [group.type.toByte]

/-- The content of a body: its locals, then instructions up to its end. -/
def FunctionBody.readContent : Reader FunctionBody :=
  return ⟨← Reader.counted LocalGroup.read, ← Reader.untilEmpty Instruction.read⟩

def FunctionBody.read : Reader FunctionBody := do
  let size ← Leb128.readUInt32
  let (body, _) ← Reader.within size.toNat FunctionBody.readContent
  return body

def FunctionBody.write (body : FunctionBody) : Writing := do
  let locals ← Writing.counted "locals" (fun group => return group.write) body.locals
  let code ← Writing.concat Instruction.write body.code
  Writing.sized "function body" (locals ++ code)

def DataSegment.read : Reader DataSegment :=
  return ⟨← Leb128.readUInt32, ← Reader.initializer, ← Reader.blob⟩

def DataSegment.write (segment : DataSegment) : Writing := do
  let offset ← Writing.initializer segment.offset
  let bytes ← Writing.sized "data segment" segment.bytes
  return uint32 segment.memory ++ offset ++ bytes

end WasmGas

import WasmGas.Module.Basic
import WasmGas.Wire.Entry
import WasmGas.Wire.Names

/-! # Modules on the wire

Eight bytes of preamble and then sections to the end, each an id, a size and a
payload that has to fill the size exactly. No read goes on into the next section.
-/

namespace WasmGas

/-- Reads the payload of a section of some kind. -/
def SectionKind.readPayload : SectionKind → Reader Section
  | custom => do
    let name ← Reader.name
    return .custom name (← CustomPayload.read name)
  | types => return .types (← Reader.counted Signature.read)
  | imports => return .imports (← Reader.counted ImportEntry.read)
  | functions => return .functions (← Reader.counted Leb128.readUInt32)
  | tables => return .tables (← Reader.counted TableType.read)
  | memories => return .memories (← Reader.counted Limits.read)
  | globals => return .globals (← Reader.counted GlobalEntry.read)
  | exports => return .exports (← Reader.counted ExportEntry.read)
  | start => return .start (← Leb128.readUInt32)
  | elements => return .elements (← Reader.counted ElementEntry.read)
  | code => return .code (← Reader.counted FunctionBody.read)
  | data => return .data (← Reader.counted DataSegment.read)
  | dataCount => return .dataCount (← Leb128.readUInt32)

/-- A section together with where its id stood and the size that it declared. -/
structure LocatedSection where
  offset : Nat
  size : Nat
  content : Section

namespace LocatedSection

def read : Reader LocatedSection := do
  let start ← Reader.offset
  let kind ← Reader.code SectionKind.ofByte? .unknownSection
  let size ← Leb128.readUInt32
  let content ← Reader.exactly kind.name size.toNat
    (Reader.blaming kind.name size.toNat kind.readPayload)
  return ⟨start, size.toNat, content⟩

end LocatedSection

def Section.read : Reader Section := do
  return (← LocatedSection.read).content

def Preamble.read : Reader Preamble :=
  return ⟨← Reader.word32, ← Reader.word32⟩

def Preamble.write (preamble : Preamble) : Bytes :=
  word32 preamble.magic ++ word32 preamble.version

def Module.read : Reader Module :=
  return ⟨← Preamble.read, ← Reader.untilEmpty Section.read⟩

/-- The module that a file holds. -/
def Module.decode (bytes : Bytes) : Except DecodeError Module :=
  Module.read.value (.ofBytes bytes)

/-- The sections up to the first that cannot be read, at most `limit` of them. -/
def LocatedSection.leading : (limit : Nat) → Cursor → List LocatedSection
  | 0, _ => []
  | limit + 1, cursor =>
    if cursor.rest.isEmpty then []
    else
      match LocatedSection.read cursor with
      | .ok head after => head :: leading limit after
      | .error _ _ => []

/-- The sections of a file up to the first that cannot be read. -/
def LocatedSection.ofFile (bytes : Bytes) : List LocatedSection :=
  match Preamble.read (.ofBytes bytes) with
  | .ok _ after => leading after.remaining after
  | .error _ _ => []

def Section.writePayload : Section → Writing
  | custom name payload => do
    let name ← Writing.name name
    let content ← payload.write
    return name ++ content
  | types entries => Writing.counted "type" Signature.write entries
  | imports entries => Writing.counted "import" ImportEntry.write entries
  | functions typeIndices =>
    Writing.counted "function" (fun index => return uint32 index) typeIndices
  | tables entries => Writing.counted "table" (fun type => return type.write) entries
  | memories entries => Writing.counted "memory" (fun limits => return limits.write) entries
  | globals entries => Writing.counted "global" GlobalEntry.write entries
  | exports entries => Writing.counted "export" ExportEntry.write entries
  | start index => return uint32 index
  | elements entries => Writing.counted "element" ElementEntry.write entries
  | code bodies => Writing.counted "code" FunctionBody.write bodies
  | data segments => Writing.counted "data" DataSegment.write segments
  | dataCount count => return uint32 count

def Section.write (content : Section) : Writing := do
  let payload ← content.writePayload
  let sized ← Writing.sized content.kind.name payload
  return content.kind.toByte :: sized

/-- The file that holds a module. -/
def Module.encode (m : Module) : Writing := do
  let sections ← Writing.concat Section.write m.sections
  return m.preamble.write ++ sections

end WasmGas

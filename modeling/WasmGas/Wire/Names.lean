import WasmGas.Module.Section
import WasmGas.Wire.Region

/-! # The name section on the wire

A custom section called `name` holds debug names in subsections, each a kind, a
size and a payload. The payload has to fill its size, and only a known kind is
taken apart.
-/

namespace WasmGas

/-- What the custom section with the debug names is called. -/
def nameSection : String := "name"

def NameEntry.read : Reader NameEntry :=
  return ⟨← Leb128.readUInt32, ← Reader.name⟩

def NameEntry.write (entry : NameEntry) : Writing := do
  let name ← Writing.name entry.name
  return uint32 entry.index ++ name

def LocalNames.read : Reader LocalNames :=
  return ⟨← Leb128.readUInt32, ← Reader.counted NameEntry.read⟩

def LocalNames.write (group : LocalNames) : Writing := do
  let names ← Writing.counted "name map" NameEntry.write group.names
  return uint32 group.function ++ names

/-- Reads the payload of a subsection of some kind. -/
def NameSubsection.readPayload (kind : UInt8) : Reader NameSubsection :=
  if kind = 0 then return .moduleName (← Reader.name)
  else if kind = 1 then return .functionNames (← Reader.counted NameEntry.read)
  else if kind = 2 then return .localNames (← Reader.counted LocalNames.read)
  else return .unknown kind (← Reader.rest)

def NameSubsection.read : Reader NameSubsection := do
  let kind ← Reader.byte
  let size ← Leb128.readUInt32
  Reader.exactly nameSection size.toNat (NameSubsection.readPayload kind)

def NameSubsection.writePayload : NameSubsection → Writing
  | moduleName name => Writing.name name
  | functionNames names => Writing.counted "name map" NameEntry.write names
  | localNames groups => Writing.counted "local names" LocalNames.write groups
  | unknown _ payload => return payload

def NameSubsection.write (subsection : NameSubsection) : Writing := do
  let payload ← subsection.writePayload
  let content ← Writing.sized "name subsection" payload
  return subsection.kind :: content

/-- Reads the content of a custom section called `name`. -/
def CustomPayload.read (name : String) : Reader CustomPayload :=
  if name = nameSection then return .names (← Reader.untilEmpty NameSubsection.read)
  else return .raw (← Reader.rest)

def CustomPayload.write : CustomPayload → Writing
  | raw bytes => return bytes
  | names subsections => Writing.concat NameSubsection.write subsections

end WasmGas

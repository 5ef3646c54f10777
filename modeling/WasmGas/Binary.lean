import WasmGas.Metering.Inject
import WasmGas.Price.Standard
import WasmGas.Wire.Module

/-! # From file to file

A binary is read, changed or looked at, and written again. An error tells which of these
steps failed and why.
-/

namespace WasmGas

inductive BinaryError where
  | decode (cause : DecodeError)
  | meter (cause : MeteringError)
  | encode (cause : EncodeError)
  /-- A module that was just read cannot be written. -/
  | reencode (cause : EncodeError)
  deriving DecidableEq, Repr

namespace BinaryError

/-- Which step failed. -/
def context : BinaryError → String
  | decode _ => "failed to decode WebAssembly module"
  | meter _ => "failed to inject metering"
  | encode _ => "failed to encode metered module"
  | reencode _ => "failed to re-encode module"

/-- Why the step failed. -/
def cause : BinaryError → String
  | decode cause => cause.message
  | meter cause => cause.message
  | encode cause => cause.message
  | reencode cause => cause.message

def message (fault : BinaryError) : String := fault.context ++ ": " ++ fault.cause

end BinaryError

namespace Binary

def decode (binary : Bytes) : Except BinaryError Module :=
  (Module.decode binary).mapError .decode

/-- The metered binary and the gas that its metering calls charge together. -/
def meter (binary : Bytes) (tariff : Tariff) (options : MeteringOptions) :
    Except BinaryError (Bytes × Gas) := do
  let m ← decode binary
  let (metered, gas) ← (m.meter tariff options).mapError .meter
  let content ← metered.encode.mapError .encode
  return (content, gas)

/-- The binary as it is written when nothing was changed. -/
def reencode (binary : Bytes) : Except BinaryError Bytes := do
  let m ← decode binary
  m.encode.mapError .reencode

end Binary

/-- A section in a listing. -/
structure SectionSummary where
  kind : SectionKind
  /-- The name of a custom section. -/
  name : Option String
  entries : Nat
  /-- Whether the section is a custom one that was taken apart. -/
  structured : Bool
  deriving DecidableEq, Repr

/-- A text with blanks behind it, up to a width. -/
def padRight (width : Nat) (text : String) : String :=
  text ++ String.ofList (List.replicate (width - text.length) ' ')

/-- A text with blanks in front of it, up to a width. -/
def padLeft (width : Nat) (text : String) : String :=
  String.ofList (List.replicate (width - text.length) ' ') ++ text

namespace SectionSummary

def ofSection (content : Section) : SectionSummary :=
  match content with
  | .custom name (.names _) => ⟨content.kind, some name, content.entryCount, true⟩
  | .custom name (.raw _) => ⟨content.kind, some name, content.entryCount, false⟩
  | _ => ⟨content.kind, none, content.entryCount, false⟩

def line (summary : SectionSummary) : String :=
  let kind := padRight 10 summary.kind.name
  match summary.name with
  | none => s!"{kind} {summary.entries} entries"
  | some name =>
    let unit := if summary.structured then "subsections" else "bytes"
    kind ++ " \"" ++ name ++ "\" " ++ s!"{summary.entries} {unit}"

end SectionSummary

/-- The sections of a binary, in the order in which they stand. -/
def Binary.inspect (binary : Bytes) : Except BinaryError (List SectionSummary) := do
  return (← decode binary).sections.map .ofSection

end WasmGas

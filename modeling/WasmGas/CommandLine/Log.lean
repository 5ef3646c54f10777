import WasmGas.Binary
import WasmGas.Text.ControlSequence

/-! # The log

What the steps from file to file tell about themselves, line by line. A step that fails
has told what it did up to there.
-/

namespace WasmGas

/-- A line for the log, with the part of the program that it comes from. -/
structure LogLine where
  level : String
  source : String
  text : String
  deriving DecidableEq, Repr

/-- A text with some characters put behind each line break in it. -/
def indentBreaks (margin : String) (text : String) : String :=
  String.ofList (text.toList.flatMap fun c => if c = '\n' then '\n' :: margin.toList else [c])

namespace LogLine

def debug (source text : String) : LogLine := ⟨"DEBUG", source, text⟩

def info (source text : String) : LogLine := ⟨"INFO", source, text⟩

/-- The line as it is written, with a line break behind it. A control sequence in its text
does not get through, and may take what comes after it along, the break too. -/
def record (line : LogLine) : String :=
  let body := indentBreaks "    " line.text
  stripControls ("[" ++ padRight 5 line.level ++ s!" {line.source}] {body}\n")

end LogLine

namespace Log

def decoder : String := "wasm_meter_core::decoder"

def metering : String := "wasm_meter_core::metering"

def encoder : String := "wasm_meter_core::encoder"

def pipeline : String := "wasm_meter"

/-- What reading a binary tells. -/
def ofDecoding (binary : Bytes) : List LogLine :=
  let sections := (LocatedSection.ofFile binary).map fun s =>
    LogLine.debug decoder
      (s!"decoded {s.content.kind.name} section at byte {s.offset}: {s.size} bytes, " ++
        s!"{s.content.entryCount} entries")
  match Module.decode binary with
  | .error _ => sections
  | .ok m =>
    sections ++
      [.debug decoder s!"decoded module: {binary.length} bytes, {m.sections.length} sections"]

/-- What charging for bodies tells. -/
def ofBodies (meter : Meter) (callCost : Gas) : (function : UInt32) → List Gas →
    List FunctionBody → List LogLine
  | function, entry :: entries, body :: bodies =>
    match meter.meterBody callCost entry function body with
    | .error _ => []
    | .ok metered =>
      .debug metering
          (s!"function {function}: {metered.calls} metering call(s), " ++
            s!"cost {metered.gas.units}") ::
        ofBodies meter callCost (function + 1) entries bodies
  | _, _, _ => []

/-- What metering a module tells. -/
def ofMetering (m : Module) (tariff : Tariff) (options : MeteringOptions) : List LogLine :=
  if (m.conflict? options).isSome then []
  else
    let meter : Meter := ⟨tariff, options.register, m.importedFunctions⟩
    let imported := m.withMeteringImport options
    let first := meter.function + 1
    let begun :=
      LogLine.info metering
        (s!"metering import {options.functionName} at function index {meter.function}, " ++
          s!"type {m.nextTypeIndex}")
    match meter.callCost with
    | .error _ => [begun]
    | .ok callCost =>
      let priced := LogLine.debug metering s!"metering call sequence costs {callCost.units}"
      match imported.entryCosts tariff first with
      | .error _ => [begun, priced]
      | .ok entries =>
        let bodies := ofBodies meter callCost first entries (imported.bodies?.getD [])
        match m.meter tariff options with
        | .error _ => begun :: priced :: bodies
        | .ok (_, gas) =>
          begun :: priced :: bodies ++
            [.info metering s!"metering injected, total cost {gas.units}"]

/-- What writing sections tells. -/
def ofEncoding : List Section → List LogLine
  | [] => []
  | content :: others =>
    match content.writePayload with
    | .error _ => []
    | .ok payload =>
      let line :=
        LogLine.debug encoder s!"encoded {content.kind.name} section: {payload.length} bytes"
      match content.write with
      | .error _ => [line]
      | .ok _ => line :: ofEncoding others

/-- What metering a binary tells. -/
def ofBinary (binary : Bytes) (tariff : Tariff) (options : MeteringOptions) : List LogLine :=
  ofDecoding binary ++
    match Module.decode binary with
    | .error _ => []
    | .ok m =>
      .debug pipeline s!"decoded {m.sections.length} sections" :: ofMetering m tariff options ++
        match m.meter tariff options with
        | .error _ => []
        | .ok (metered, _) => ofEncoding metered.sections

/-- What writing a binary again tells. -/
def ofReencoding (binary : Bytes) : List LogLine :=
  ofDecoding binary ++
    match Module.decode binary with
    | .error _ => []
    | .ok m => ofEncoding m.sections

end Log

end WasmGas

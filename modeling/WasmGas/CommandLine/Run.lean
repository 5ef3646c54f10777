import WasmGas.CommandLine.Arguments
import WasmGas.CommandLine.Log
import WasmGas.CommandLine.Output
import WasmGas.Price.Json

/-! # Running a command

A command reads files, puts bytes into one file or on the standard output, and tells
what it did on the standard error. When it fails it has changed no file and put out
nothing. What it put out can be lost without its failing, for the end of it may still be in
the buffer of the standard output when the program ends.
-/

namespace WasmGas

/-- Why a command failed: what it was about to do, and the causes below that, each with
the next one as its own cause. -/
structure Failure where
  context : String
  causes : List String
  deriving DecidableEq, Repr

namespace Failure

/-- The causes with their numbers before them, which a single one does not need. -/
def numbered : (number : Nat) → List String → List String
  | _, [] => []
  | number, cause :: others =>
    (padLeft 5 (toString number) ++ ": " ++ indentBreaks "       " cause) ::
      numbered (number + 1) others

def causeLines : List String → List String
  | [cause] => ["    " ++ indentBreaks "    " cause]
  | causes => numbered 0 causes

def report (failure : Failure) : List String :=
  ("Error: " ++ failure.context) ::
    if failure.causes = [] then []
    else "" :: "Caused by:" :: causeLines failure.causes

end Failure

/-- What a run leaves behind: its exit code, what it put out, what it wrote on the
standard error, and the file that it wrote. -/
structure Outcome where
  exit : UInt32
  output : Bytes
  messages : String
  written : Option (String × Bytes)
  deriving DecidableEq, Repr

def utf8 (text : String) : Bytes := text.toUTF8.data.toList

/-- Lines, each with a line break behind it. -/
def unlines (lines : List String) : String :=
  lines.foldr (fun line text => line ++ "\n" ++ text) ""

namespace Outcome

def failed (messages : String) (failure : Failure) : Outcome :=
  ⟨1, [], messages ++ unlines failure.report, none⟩

end Outcome

namespace Command

/-- What a log writes, if it was asked for. -/
def shown (verbose : Bool) (lines : List LogLine) : String :=
  if verbose then lines.foldr (fun line text => line.record ++ text) "" else ""

def readInput (system : FileSystem) (path : String) : Except Failure Bytes :=
  (system.read path).mapError fun fault => ⟨"failed to read " ++ path, [fault.message]⟩

/-- The tariff of a file, or the standard one if none is named. -/
def readTariff (system : FileSystem) : Option String → Except Failure Tariff
  | none => return Tariff.standard
  | some path => do
    let unread := "failed to read cost table " ++ path
    let content ← (system.read path).mapError fun fault => Failure.mk unread [fault.message]
    match String.fromUTF8? content.toByteArray with
    | none => throw ⟨unread, ["stream did not contain valid UTF-8"]⟩
    | some text =>
      match Tariff.ofJson? text with
      | some tariff => return tariff
      | none =>
        throw ⟨"failed to load " ++ path, ["invalid cost table", "not an object of costs"]⟩

/-- A failed step from file to file, as a cause of some other failure. -/
def ofBinaryError (context : String) (fault : BinaryError) : Failure :=
  ⟨context, [fault.context, fault.cause]⟩

/-- Meters the input and writes the result into the output file, or puts it out. -/
def runMeter (system : FileSystem) (verbose : Bool) (input : String)
    (output tariff : Option String) (options : MeteringOptions) : Outcome :=
  let begun := unlines ["wasm-meter: metering " ++ input]
  match readInput system input with
  | .error failure => .failed begun failure
  | .ok binary =>
    match readTariff system tariff with
    | .error failure => .failed begun failure
    | .ok tariff =>
      let told := begun ++ shown verbose (Log.ofBinary binary tariff options)
      match Binary.meter binary tariff options with
      | .error fault => .failed told (ofBinaryError "metering failed" fault)
      | .ok (content, gas) =>
        let total := s!"wasm-meter: total gas {gas.units}"
        match output with
        | none =>
          match system.reportedFault? content with
          | some fault => .failed told ⟨"failed to write to stdout", [fault.message]⟩
          | none => ⟨0, system.received content, told ++ unlines [total], none⟩
        | some path =>
          match system.writeFault? path with
          | some fault => .failed told ⟨"failed to write " ++ path, [fault.message]⟩
          | none =>
            ⟨0, [], told ++ unlines ["wasm-meter: wrote " ++ path, total], some (path, content)⟩

/-- Where two byte strings first differ, or the shorter one ends. -/
def firstDifference : Bytes → Bytes → Nat
  | a :: as, b :: bs => if a = b then firstDifference as bs + 1 else 0
  | _, _ => 0

/-- Reads the input and writes it again, and compares the two. -/
def runRoundtrip (system : FileSystem) (verbose : Bool) (input : String) : Outcome :=
  match readInput system input with
  | .error failure => .failed "" failure
  | .ok binary =>
    let told := shown verbose (Log.ofReencoding binary)
    match Binary.reencode binary with
    | .error fault => .failed told (ofBinaryError "round trip failed" fault)
    | .ok content =>
      if content = binary then
        ⟨0, [], told ++ unlines [s!"wasm-meter: {input} round-trips ({binary.length} bytes)"], none⟩
      else
        let offset := firstDifference binary content
        .failed told
          ⟨s!"{input}: re-encoded module differs at byte {offset} " ++
            s!"({binary.length} bytes in, {content.length} bytes out)", []⟩

/-- Lists the sections of the input. The program breaks off at a line that it cannot put out. -/
def runInspect (system : FileSystem) (verbose : Bool) (input : String) : Outcome :=
  match readInput system input with
  | .error failure => .failed "" failure
  | .ok binary =>
    let told := shown verbose (Log.ofDecoding binary)
    match Binary.inspect binary with
    | .error fault => .failed told ⟨fault.context, [fault.cause]⟩
    | .ok summaries =>
      let listing := utf8 (unlines (summaries.map (·.line)))
      match system.reportedFault? listing with
      | some fault =>
        ⟨101, [], told ++ unlines ["failed printing to stdout: " ++ fault.message], none⟩
      | none => ⟨0, system.received listing, told, none⟩

def run (system : FileSystem) (verbose : Bool) : Command → Outcome
  | meter input output tariff options => runMeter system verbose input output tariff options
  | roundtrip input => runRoundtrip system verbose input
  | inspect input => runInspect system verbose input

end Command

/-- How the program is called. -/
def usage : String :=
  unlines
    ["Usage: wasm-meter [-v] meter [-o PATH] [--cost-table PATH] [--module NAME]",
      "           [--field NAME] [--register-type TYPE] INPUT",
      "       wasm-meter [-v] roundtrip INPUT",
      "       wasm-meter [-v] inspect INPUT"]

def versionText : String := "wasm-meter 0.1.0\n"

/-- Tells something about the program, if that can be told. -/
def tell (system : FileSystem) (text : String) : Outcome :=
  ⟨0, system.received (utf8 text), "", none⟩

/-- Does what the arguments ask for. -/
def Request.run (system : FileSystem) : Request → Outcome
  | perform verbose command => command.run system verbose
  | help => tell system usage
  | version => tell system versionText
  | misuse => ⟨2, [], usage, none⟩

/-- Puts what was written into the files. What was written to the standard output as a file has
been put out. -/
def Files.carryOut (files : Files) (outcome : Outcome) : Outcome × Files :=
  match outcome.written with
  | none => (outcome, files)
  | some (path, content) =>
    match files.target path with
    | .ok parts =>
      if parts = outputDevice then ({ outcome with output := outcome.output ++ content }, files)
      else (outcome, files.write parts content)
    | .error _ => (outcome, files)

/-- The outcome of the program in a working directory, and the files there after it. The output
takes everything unless it is said to be at fault. -/
def Files.run (files : Files) (arguments : List String) (outputFault? : Option FileError := none) :
    Outcome × Files :=
  files.carryOut ((Request.ofArguments arguments).run (files.system outputFault?))

end WasmGas

import WasmGas.CommandLine.Run

/-! # The program

Reads the files that the command needs, runs the command on what they hold, and carries
out what it asks for.
-/

namespace WasmGas

def FileError.ofIO : IO.Error → FileError
  | .noFileOrDirectory .. => .notFound
  | .inappropriateType _ code _ => if code = 20 then .notDirectory else .isDirectory
  | .invalidArgument _ 36 _ => .nameTooLong
  | .resourceExhausted _ 28 _ => .noSpace
  | fault => .other (toString fault)

/-- What reading a path gives. -/
def readPath (path : String) : IO (Except FileError Bytes) := do
  try
    return .ok (← IO.FS.readBinFile path).data.toList
  catch fault => return .error (.ofIO fault)

/-- What writing to a path gives. -/
def writePath (path : String) (content : Bytes) : IO (Option FileError) := do
  try
    IO.FS.withFile path .write fun file => do
      file.write content.toByteArray
      file.flush
    return none
  catch fault => return some (.ofIO fault)

/-- The paths that a request reads. -/
def Request.inputs : Request → List String
  | perform _ (.meter input _ tariff _) => input :: tariff.toList
  | perform _ (.roundtrip input) => [input]
  | perform _ (.inspect input) => [input]
  | _ => []

/-- What putting something on the standard output gives, where nothing is kept back. -/
def putOut (output : Bytes) : IO (Option FileError) := do
  try
    let stdout ← IO.getStdout
    stdout.write output.toByteArray
    stdout.flush
    return none
  catch fault => return some (.ofIO fault)

end WasmGas

open WasmGas in
def main (arguments : List String) : IO UInt32 := do
  let request := Request.ofArguments arguments
  let contents ← request.inputs.mapM fun path => return (path, ← readPath path)
  let read (path : String) : Except FileError Bytes :=
    (contents.lookup path).getD (.error .notFound)
  let planned := request.run ⟨read, fun _ => none, none⟩
  let fileFault? ←
    match planned.written with
    | none => pure none
    | some (path, content) => writePath path content
  let passed := LineBuffer.passed planned.output
  let outputFault? ← if passed = [] then pure none else putOut passed
  let outcome := request.run ⟨read, fun _ => fileFault?, outputFault?⟩
  (← IO.getStderr).putStr outcome.messages
  -- The buffer is emptied when everything else is done, so a fault changes nothing anymore.
  if outputFault?.isNone then
    let _ ← putOut (LineBuffer.kept planned.output)
  return outcome.exit

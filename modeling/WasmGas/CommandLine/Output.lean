import WasmGas.CommandLine.Files

/-! # The standard output

What is put out goes through a line buffer. Lines are passed on at once. What comes behind
the last line break is kept until the program ends, if there is room for it, and when it is
passed on then, nobody is told whether that went well.
-/

namespace WasmGas

namespace LineBuffer

/-- How many bytes there is room for. -/
def room : Nat := 1024

def lineBreak : UInt8 := 0x0a

/-- What comes behind the last line break. -/
def unfinished (bytes : Bytes) : Bytes := (bytes.reverse.takeWhile (· != lineBreak)).reverse

/-- What an empty buffer keeps of some bytes. It is never full. -/
def kept (bytes : Bytes) : Bytes :=
  if (unfinished bytes).length < room then unfinished bytes else []

/-- What an empty buffer passes on of some bytes. -/
def passed (bytes : Bytes) : Bytes := bytes.take (bytes.length - (kept bytes).length)

end LineBuffer

namespace FileSystem

variable (system : FileSystem)

/-- What stands against putting out some bytes, as far as the program is told. -/
def reportedFault? (bytes : Bytes) : Option FileError :=
  if LineBuffer.passed bytes = [] then none else system.outputFault?

/-- What has come out of some bytes once the program has ended, if no fault was reported. -/
def received (bytes : Bytes) : Bytes :=
  match system.outputFault? with
  | some _ => []
  | none => bytes

end FileSystem

end WasmGas

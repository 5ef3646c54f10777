import WasmGas.Wire.Cursor

/-! # Files

The files of a working directory by their paths, and what it says when a path cannot be
read or written. Paths are taken apart at slashes; a directory is there if a file lies
below it. Of what lies outside of the working directory only little is known.
-/

namespace WasmGas

inductive FileError where
  | notFound
  | notDirectory
  | isDirectory
  | noSpace
  | nameTooLong
  /-- The cause in the words of the system. -/
  | other (cause : String)
  deriving DecidableEq, Repr

def FileError.message : FileError → String
  | notFound => "No such file or directory (os error 2)"
  | notDirectory => "Not a directory (os error 20)"
  | isDirectory => "Is a directory (os error 21)"
  | noSpace => "No space left on device (os error 28)"
  | nameTooLong => "File name too long (os error 36)"
  | other cause => cause

/-- What there is to be read, and what stands against writing to a file or to the standard
output. A file or an output takes all or nothing. -/
structure FileSystem where
  read : String → Except FileError Bytes
  writeFault? : String → Option FileError
  outputFault? : Option FileError

/-- Paths from the working directory, part by part, and what the files there hold. -/
abbrev Files := List (List String × Bytes)

/-- Where a path leads. The parts of a place outside of the working directory begin with
`..` or, counted from the root, with `/`. -/
inductive Place where
  | directory (parts : List String)
  | file (parts : List String) (content : Bytes)
  /-- Nothing is there, but the directory around it is. -/
  | vacant (parts : List String)

/-- The parts of a path between slashes. -/
def splitPath : List Char → List (List Char)
  | [] => [[]]
  | '/' :: rest => [] :: splitPath rest
  | c :: rest =>
    match splitPath rest with
    | [] => [[c]]
    | first :: others => (c :: first) :: others

def pathParts (path : String) : List String := (splitPath path.toList).map String.ofList

/-- How many bytes a part of a path may have. -/
def maxPartBytes : Nat := 255

/-- How many bytes a path may have. -/
def maxPathBytes : Nat := 4095

/-- The directories at the root that every system has. -/
def rootDirectories : List String := ["bin", "dev", "etc", "lib", "proc", "tmp", "usr"]

/-- The device that is always empty and takes everything. -/
def nullDevice : List String := ["/", "dev", "null"]

/-- The device that takes nothing. -/
def fullDevice : List String := ["/", "dev", "full"]

/-- The standard output, as a file. -/
def outputDevice : List String := ["/", "dev", "stdout"]

/-- Whether some parts lead out of the working directory. -/
def isOutside (parts : List String) : Bool :=
  match parts with
  | [] => false
  | first :: _ => first = "/" || first = ".."

/-- The directory around a directory. The root is around itself. -/
def parentParts (parts : List String) : List String :=
  if parts = ["/"] then parts
  else if parts.all (· == "..") then parts ++ [".."]
  else parts.dropLast

namespace Files

variable (files : Files)

/-- The working directory and those around it are there, and so is one that a file lies
below. -/
def isDirectory (parts : List String) : Bool :=
  parts.all (· == "..") || parts = ["/"] || rootDirectories.any (parts == ["/", ·]) ||
    files.any fun file => parts.isPrefixOf file.1 && parts.length < file.1.length

/-- What some parts name, taken as they are. -/
def at? (parts : List String) : Place :=
  if parts = nullDevice ∨ parts = fullDevice ∨ parts = outputDevice then .file parts []
  else
    match files.lookup parts with
    | some content => .file parts content
    | none => if files.isDirectory parts then .directory parts else .vacant parts

/-- Goes on from a place along the parts of a path. -/
def walk : Place → List String → Except FileError Place
  | place, [] => return place
  | .directory parts, part :: rest =>
    if part = "" ∨ part = "." then walk (.directory parts) rest
    else if part = ".." then walk (.directory (parentParts parts)) rest
    else if maxPartBytes < part.utf8ByteSize then throw .nameTooLong
    else walk (files.at? (parts ++ [part])) rest
  | .file _ _, _ :: _ => throw .notDirectory
  | .vacant _, _ :: _ => throw .notFound

/-- Follows the parts of a path from the root or the working directory. -/
def follow (path : String) (parts : List String) : Except FileError Place :=
  if maxPathBytes < path.utf8ByteSize then throw .nameTooLong
  else if path.toList.head? = some '/' then files.walk (.directory ["/"]) parts
  else files.walk (.directory []) parts

/-- Where a path leads. -/
def resolve (path : String) : Except FileError Place := files.follow path (pathParts path)

def read (path : String) : Except FileError Bytes := do
  match ← files.resolve path with
  | .file _ content => return content
  | .directory _ => throw .isDirectory
  | .vacant _ => throw .notFound

/-- The parts before the last one of a path that ends with slashes. -/
def partsAround (path : String) : List String :=
  (pathParts (String.ofList (path.toList.reverse.dropWhile (· == '/')).reverse)).dropLast

/-- The parts of the file that writing to a path makes or changes. A path that ends with
a slash can only be a directory, so of it the last part is not looked up. -/
def target (path : String) : Except FileError (List String) :=
  if path.toList.getLast? = some '/' then do
    let _ ← files.follow path (partsAround path ++ ["."])
    throw .isDirectory
  else do
    match ← files.resolve path with
    | .file parts _ => if parts = fullDevice then throw .noSpace else return parts
    | .vacant parts => return parts
    | .directory _ => throw .isDirectory

/-- The files after one was written. What is written outside of the working directory is
none of them. -/
def write (parts : List String) (content : Bytes) : Files :=
  if isOutside parts then files
  else if (files.lookup parts).isSome then
    files.map fun file => if file.1 = parts then (parts, content) else file
  else files ++ [(parts, content)]

/-- The files as something to be read from and written to, beside an output that may be at
fault. A write to the output as a file is not buffered, so it is told of the fault. -/
def system (outputFault? : Option FileError) : FileSystem where
  read := files.read
  writeFault? path :=
    match files.target path with
    | .ok parts => if parts = outputDevice then outputFault? else none
    | .error fault => some fault
  outputFault? := outputFault?

end Files

end WasmGas

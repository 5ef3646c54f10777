import WasmGas.Wire.Region

/-! # Sessions of single reads and writes

The primitive reads as commands on a stack of nested windows, and the primitive
writes as commands on growing content. Reading a module is such a session; here the
commands come from outside, and what each of them leaves behind can be looked at,
also when it fails.
-/

namespace WasmGas

/-- A part of a file that is being read: where it starts and what is left of it. -/
structure Window where
  start : Nat
  cursor : Cursor
  deriving DecidableEq, Repr

namespace Window

def ofBytes (bytes : Bytes) : Window := ⟨0, .ofBytes bytes⟩

/-- How many bytes of the window have been read. -/
def consumed (window : Window) : Nat := window.cursor.offset - window.start

end Window

/-- What a read finds. -/
inductive Datum where
  | byte (value : UInt8)
  | bytes (value : Bytes)
  | uint32 (value : UInt32)
  | int32 (value : Int32)
  | int64 (value : Int64)
  | text (value : String)
  deriving DecidableEq, Repr

/-- A read on the innermost window. -/
inductive Read where
  | byte
  | take (count : Nat)
  | rest
  | uint32
  | int32
  | int64
  | blob
  | name
  deriving DecidableEq, Repr

def Read.reader : Read → Reader Datum
  | byte => return .byte (← Reader.byte)
  | take count => return .bytes (← Reader.take count)
  | rest => return .bytes (← Reader.rest)
  | uint32 => return .uint32 (← Leb128.readUInt32)
  | int32 => return .int32 (← Leb128.readInt32)
  | int64 => return .int64 (← Leb128.readInt64)
  | blob => return .bytes (← Reader.blob)
  | name => return .text (← Reader.name)

/-- Windows that lie one inside the other, the innermost first. -/
structure Windows where
  innermost : Window
  outer : List Window
  deriving DecidableEq, Repr

inductive WindowCommand where
  | read (read : Read)
  /-- Opens a window on the next bytes, which the window around it skips. -/
  | enter (size : Nat)
  /-- Goes back to the window around; the outermost one stays open. -/
  | leave
  deriving DecidableEq, Repr

namespace Windows

def ofBytes (bytes : Bytes) : Windows := ⟨.ofBytes bytes, []⟩

/-- Runs a reader on the innermost window. -/
def runReader (windows : Windows) (reader : Reader α) : Except DecodeError α × Windows :=
  let moved (cursor : Cursor) : Windows :=
    { windows with innermost := { windows.innermost with cursor } }
  match reader windows.innermost.cursor with
  | .ok a cursor => (.ok a, moved cursor)
  | .error fault cursor => (.error fault, moved cursor)

/-- Runs one command. What it finds, if it is there to find something, comes with the
windows after it. -/
def run (windows : Windows) : WindowCommand → Except DecodeError (Option Datum) × Windows
  | .read read => windows.runReader (some <$> read.reader)
  | .enter size =>
    match windows.runReader (Reader.slice size) with
    | (.ok cursor, after) =>
      (.ok none, ⟨⟨cursor.offset, cursor⟩, after.innermost :: after.outer⟩)
    | (.error fault, after) => (.error fault, after)
  | .leave =>
    match windows.outer with
    | [] => (.ok none, windows)
    | around :: outer => (.ok none, ⟨around, outer⟩)

end Windows

/-- A write at the end of some content. -/
inductive Write where
  | byte (value : UInt8)
  | bytes (value : Bytes)
  | uint32 (value : UInt32)
  | int32 (value : Int32)
  | int64 (value : Int64)
  | length (what : String) (length : Nat)
  | sized (what : String) (value : Bytes)
  | name (text : String)
  deriving DecidableEq, Repr

namespace Write

def content : Write → Writing
  | byte value => return [value]
  | bytes value => return value
  | uint32 value => return WasmGas.uint32 value
  | int32 value => return WasmGas.int32 value
  | int64 value => return WasmGas.int64 value
  | length what n => Writing.length what n
  | sized what value => Writing.sized what value
  | name text => Writing.name text

/-- Writes after what is there; a write that fails adds nothing. -/
def run (write : Write) (before : Bytes) : Except EncodeError Unit × Bytes :=
  match write.content with
  | .ok added => (.ok (), before ++ added)
  | .error fault => (.error fault, before)

end Write

end WasmGas

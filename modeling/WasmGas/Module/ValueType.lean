/-! # Types, kinds and qualifiers

The one-byte codes of the binary format and the words that name them. Beside the
four number types, `ValueType` holds the other codes that stand where a type
does: the element type of a table, the form of a signature and the empty block
type.
-/

namespace WasmGas

/-- A type code of the binary format. -/
inductive ValueType where
  | i32
  | i64
  | f32
  | f64
  | anyfunc
  | func
  | empty
  deriving DecidableEq, Repr

namespace ValueType

/-- Every type code, in the order of falling bytes. -/
def all : List ValueType := [.i32, .i64, .f32, .f64, .anyfunc, .func, .empty]

def toByte : ValueType → UInt8
  | i32 => 0x7f
  | i64 => 0x7e
  | f32 => 0x7d
  | f64 => 0x7c
  | anyfunc => 0x70
  | func => 0x60
  | empty => 0x40

def ofByte? (byte : UInt8) : Option ValueType :=
  all.find? (·.toByte == byte)

/-- The word for a type in text; cost tables use the same words as keys. -/
def name : ValueType → String
  | i32 => "i32"
  | i64 => "i64"
  | f32 => "f32"
  | f64 => "f64"
  | anyfunc => "anyfunc"
  | func => "func"
  | empty => "empty"

/-- The type that a word names. `funcref` is a second word for `anyfunc`. -/
def ofName? (word : String) : Option ValueType :=
  if word = "funcref" then some anyfunc else all.find? (·.name == word)

/-- Each type has its own byte. -/
theorem ofByte?_toByte (type : ValueType) : ofByte? type.toByte = some type := by
  cases type <;> rfl

/-- A byte is that of one type at most. -/
theorem ofByte?_eq_some_iff {byte : UInt8} {type : ValueType} :
    ofByte? byte = some type ↔ byte = type.toByte := by
  constructor
  · intro found
    have same := List.find?_some found
    simpa using (eq_of_beq same).symm
  · rintro rfl
    exact ofByte?_toByte type

end ValueType

/-- What an import brings in and an export gives out. -/
inductive ExternalKind where
  | function
  | table
  | memory
  | global
  deriving DecidableEq, Repr

namespace ExternalKind

def all : List ExternalKind := [.function, .table, .memory, .global]

def toByte : ExternalKind → UInt8
  | function => 0
  | table => 1
  | memory => 2
  | global => 3

def ofByte? (byte : UInt8) : Option ExternalKind :=
  all.find? (·.toByte == byte)

def name : ExternalKind → String
  | function => "function"
  | table => "table"
  | memory => "memory"
  | global => "global"

theorem ofByte?_toByte (kind : ExternalKind) : ofByte? kind.toByte = some kind := by
  cases kind <;> rfl

theorem ofByte?_eq_some_iff {byte : UInt8} {kind : ExternalKind} :
    ofByte? byte = some kind ↔ byte = kind.toByte := by
  constructor
  · intro found
    have same := List.find?_some found
    simpa using (eq_of_beq same).symm
  · rintro rfl
    exact ofByte?_toByte kind

end ExternalKind

/-- The word before the dot of a mnemonic: the `i64` of `i64.const`, the `local`
of `local.get`. -/
inductive Qualifier where
  | i32
  | i64
  | f32
  | f64
  | local
  | global
  deriving DecidableEq, Repr

namespace Qualifier

def all : List Qualifier := [.i32, .i64, .f32, .f64, .local, .global]

def name : Qualifier → String
  | i32 => "i32"
  | i64 => "i64"
  | f32 => "f32"
  | f64 => "f64"
  | «local» => "local"
  | global => "global"

def ofName? (word : String) : Option Qualifier :=
  all.find? (·.name == word)

/-- The qualifier of the operations on a number type. -/
def ofValueType? : ValueType → Option Qualifier
  | .i32 => some i32
  | .i64 => some i64
  | .f32 => some f32
  | .f64 => some f64
  | _ => none

/-- The number type that the operations with this qualifier work on. -/
def valueType? : Qualifier → Option ValueType
  | i32 => some .i32
  | i64 => some .i64
  | f32 => some .f32
  | f64 => some .f64
  | _ => none

/-- A qualifier is found by its name. -/
theorem ofName?_name (qualifier : Qualifier) : ofName? qualifier.name = some qualifier := by
  cases qualifier <;> decide

end Qualifier

end WasmGas

import WasmGas.Wire.Cursor

/-! # Numbers in groups of seven bits

Each byte holds seven bits of a number, the least significant group first, and
its highest bit is set exactly if another byte follows. In a signed number the
bit below counts negatively in the last group. Numbers are written with as few
groups as can hold them and read with any number of groups up to a limit.
-/

namespace WasmGas.Leb128

/-- The group that ends a number. -/
def lastGroup (n : Nat) : UInt8 := UInt8.ofNat (n % 128)

/-- A group that another one follows. -/
def innerGroup (n : Nat) : UInt8 := UInt8.ofNat (n % 128 + 128)

def isLast (group : UInt8) : Bool := group.toNat < 128

/-- The shortest groups of a natural number. -/
def ofNat (n : Nat) : Bytes :=
  if n < 128 then [lastGroup n] else innerGroup n :: ofNat (n / 128)

/-- The shortest groups of an integer. -/
def ofInt (i : Int) : Bytes :=
  if -64 ≤ i ∧ i < 64 then [lastGroup (i % 128).toNat]
  else innerGroup (i % 128).toNat :: ofInt (i / 128)
termination_by i.natAbs
decreasing_by omega

/-- The natural number that groups stand for. -/
def toNat : Bytes → Nat
  | [] => 0
  | group :: groups => group.toNat % 128 + 128 * toNat groups

/-- The integer that groups stand for. -/
def toInt : Bytes → Int
  | [] => 0
  | [group] => if group.toNat % 128 < 64 then group.toNat % 128 else group.toNat % 128 - 128
  | group :: groups => group.toNat % 128 + 128 * toInt groups

/-- Reads the groups of one number, which began at `start`, up to the last one or
to the limit. -/
def readGroups (start : Nat) : (limit : Nat) → Reader Bytes
  | 0 => throw (.varintOverflow start)
  | limit + 1 => do
    let group ← Reader.byte
    if isLast group then return [group]
    return group :: (← readGroups start limit)

/-- A number of at most five groups that is below 2^32. -/
def readUInt32 : Reader UInt32 := do
  let start ← Reader.offset
  let n := toNat (← readGroups start 5)
  if n < UInt32.size then return UInt32.ofNat n else throw (.varintOverflow start)

/-- A signed number of at most five groups that lies between -2^31 and 2^31 - 1. -/
def readInt32 : Reader Int32 := do
  let start ← Reader.offset
  let i := toInt (← readGroups start 5)
  if -0x80000000 ≤ i ∧ i < 0x80000000 then return Int32.ofInt i
  else throw (.varintOverflow start)

/-- A signed number of at most ten groups. Of the tenth group only the lowest bit
counts, as the sign; what its other bits say is not looked at. -/
def readInt64 : Reader Int64 := do
  return Int64.ofInt (toInt (← readGroups (← Reader.offset) 10))

end WasmGas.Leb128

namespace WasmGas

def uint32 (n : UInt32) : Bytes := Leb128.ofNat n.toNat

def int32 (i : Int32) : Bytes := Leb128.ofInt i.toInt

def int64 (i : Int64) : Bytes := Leb128.ofInt i.toInt

end WasmGas

import WasmGas.Wire.Leb128

/-! # Lists, names and sized regions

The three ways in which the format frames its content: a count before the entries
of a list, a length before the bytes of a name or a blob, and a size before a
region that holds entries of its own. What is read stands beside what is written.
-/

namespace WasmGas

namespace Reader

/-- Reads `count` entries, one after another. -/
def repeated (entry : Reader α) : (count : Nat) → Reader (List α)
  | 0 => return []
  | count + 1 => do
    let head ← entry
    return head :: (← repeated entry count)

/-- A count and that many entries. -/
def counted (entry : Reader α) : Reader (List α) := do
  let count ← Leb128.readUInt32
  repeated entry count.toNat

/-- Reads entries until nothing is left, at most `limit` of them. -/
def untilEmptyWithin (entry : Reader α) : (limit : Nat) → Reader (List α)
  | 0 => return []
  | limit + 1 => do
    if (← get).rest.isEmpty then return []
    let head ← entry
    return head :: (← untilEmptyWithin entry limit)

/-- Reads entries until nothing is left. Each takes up at least a byte, so that
there are no more entries than bytes. -/
def untilEmpty (entry : Reader α) : Reader (List α) := do
  untilEmptyWithin entry (← get).remaining

/-- A length and that many bytes. -/
def blob : Reader Bytes := do
  let length ← Leb128.readUInt32
  take length.toNat

/-- A length and that many bytes, which have to be text. -/
def name : Reader String := do
  let start ← offset
  let bytes ← blob
  match String.fromUTF8? bytes.toByteArray with
  | some text => return text
  | none => throw (.invalidUtf8 start)

/-- Reads from the next `size` bytes alone. What is returned beside the value is how
many of them were read. -/
def within (size : Nat) (inner : Reader α) : Reader (α × Nat) := do
  let window ← slice size
  match inner window with
  | .ok a left => return (a, left.offset - window.offset)
  | .error fault _ => throw fault

/-- Reads from the next `size` bytes, which have to be read to their end. -/
def exactly (region : String) (size : Nat) (inner : Reader α) : Reader α := do
  let (a, consumed) ← within size inner
  if consumed = size then return a else throw (.sizeMismatch region size consumed)

end Reader

/-- A read that goes past the end of a region is the fault of the region's size;
one that ends sooner is not. -/
def DecodeError.pastRegion (region : String) (start size : Nat) : DecodeError → DecodeError
  | truncated offset needed =>
    if start + size < offset + needed then
      sizeMismatch region size (offset + needed - start)
    else
      truncated offset needed
  | fault => fault

/-- Reads a region of `size` bytes and blames it for reads that go past its end. -/
def Reader.blaming (region : String) (size : Nat) (inner : Reader α) : Reader α :=
  fun cursor =>
    match inner cursor with
    | .ok a left => .ok a left
    | .error fault left => .error (fault.pastRegion region cursor.offset size) left

/-- The content of a file, or the reason why it has none. -/
abbrev Writing := Except EncodeError Bytes

namespace Writing

/-- The content of each of some entries, one after another. -/
def concat (entry : α → Writing) : List α → Writing
  | [] => return []
  | head :: tail => do
    let first ← entry head
    let others ← concat entry tail
    return first ++ others

/-- A length, which has to be below 2^32. -/
def length (what : String) (n : Nat) : Writing :=
  if n < UInt32.size then return Leb128.ofNat n else throw (.lengthOverflow what n)

/-- A count and the entries that it counts. -/
def counted (what : String) (entry : α → Writing) (entries : List α) : Writing := do
  let count ← length what entries.length
  let content ← concat entry entries
  return count ++ content

/-- A size and the bytes of that size. -/
def sized (what : String) (bytes : Bytes) : Writing := do
  let size ← length what bytes.length
  return size ++ bytes

def name (text : String) : Writing :=
  sized "name" text.toUTF8.data.toList

end Writing

end WasmGas

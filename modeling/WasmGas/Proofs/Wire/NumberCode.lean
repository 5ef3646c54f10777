import WasmGas.Proofs.Wire.Numbers

/-! # The code of the numbers

The groups that are written for numbers are a code: they have the value of the number, they are
found again in front of whatever follows them, none is the beginning of another, and nothing shorter
is read as the same number (`Leb128.Codes`). So numbers can stand one after another without anything
between them, and no file with these numbers can be made smaller by writing them in another way.
-/

namespace WasmGas

/-- What is read whatever follows is told by the bytes that come first, so nothing else is read from
bytes that begin with them. -/
theorem Reader.ReadsBack.eq_of_isPrefix {α : Type} {reader : Reader α} {a b : α}
    {bytes more : Bytes} (one : reader.ReadsBack a bytes) (other : reader.ReadsBack b more)
    (begins : bytes <+: more) : a = b := by
  obtain ⟨behind, rfl⟩ := begins
  have short := one 0 behind
  have long := other.all 0
  exact (EStateM.Result.ok.inj (short.symm.trans long)).1

namespace Leb128

/-- Numbers are written as groups that are worth as much. A reader finds the number in front of
whatever follows and goes no further, it finds it in no fewer bytes, and the bytes of one number are
never the beginning of those of another. -/
structure Codes {α : Type} (reader : Reader α) (write : α → Bytes) (worth : Bytes → Int)
    (number : α → Int) : Prop where
  groups : ∀ a, Groups (write a) ∧ worth (write a) = number a
  readsBack : ∀ a offset following, reader ⟨offset, write a ++ following⟩ =
    .ok a ⟨offset + (write a).length, following⟩
  shortest : ∀ {a bytes offset stop}, reader ⟨offset, bytes⟩ = .ok a ⟨stop, []⟩ →
    (write a).length ≤ bytes.length
  prefixFree : ∀ {a b}, write a <+: write b → a = b

variable {α : Type} {reader : Reader α} {write : α → Bytes} {worth : Bytes → Int} {number : α → Int}

/-- A reader and a writer of a number are a code if the groups are worth that number. -/
theorem ReadsNumber.codes (reads : ReadsNumber reader write)
    (groups : ∀ a, Groups (write a) ∧ worth (write a) = number a) :
    Codes reader write worth number where
  groups := groups
  readsBack := reads.readsBack
  shortest := by
    intro a bytes offset stop read
    obtain ⟨taken, split, _, short⟩ := reads.takes read
    change bytes = taken ++ [] at split
    rw [split, List.append_nil]
    exact short
  prefixFree := (reads.readsBack _).eq_of_isPrefix (reads.readsBack _)

/-- **Numbers are written as a code of shortest words.** -/
theorem codes_numbers :
    Codes readUInt32 uint32 (fun groups => unsigned groups) (fun n => n.toNat) ∧
      Codes readInt32 int32 signed Int32.toInt ∧ Codes readInt64 int64 signed Int64.toInt := by
  have natural (n : Nat) : Groups (ofNat n) ∧ (unsigned (ofNat n) : Int) = n := by
    refine ⟨groups_ofNat n, ?_⟩
    rw [← toNat_eq_unsigned, toNat_ofNat]
  have integer (i : Int) : Groups (ofInt i) ∧ signed (ofInt i) = i := by
    refine ⟨groups_ofInt i, ?_⟩
    rw [← toInt_eq_signed, toInt_ofInt]
  exact ⟨readsNumber_uint32.codes fun n => natural n.toNat,
    readsNumber_int32.codes fun i => integer i.toInt,
    readsNumber_int64.codes fun i => integer i.toInt⟩

end Leb128

end WasmGas

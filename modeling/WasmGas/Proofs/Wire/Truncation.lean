import WasmGas.Proofs.Wire.Sections

/-! # Files that are cut short

If the file of a module is cut between two sections, then what is left is the file of a module with
the sections in front of the cut. Any other cut goes through a read (`Module.CutsThrough`): that of
a word of the preamble, of a group of a size or of a payload, for the payload of a section is cut
out before anything in it is read. Then the only fault is that bytes are missing, and those that are
asked for reach from the cut to the end of that read (`Module.decode_take`).
-/

namespace WasmGas

open Reader Leb128

/-! ## Reads that are cut short -/

namespace Leb128

variable {groups : Bytes} {count : Nat}

/-- Of a number that is cut short the group behind the cut is missing. -/
theorem readGroups_cut (complete : Groups groups) (start : Nat) :
    ∀ limit offset count, groups.length ≤ limit → count < groups.length →
      readGroups start limit ⟨offset, groups.take count⟩ =
        .error (.truncated (offset + count) 1) ⟨offset + count, []⟩ := by
  induction complete with
  | @last group _ =>
      intro limit offset count fits cut
      obtain ⟨limit, rfl⟩ : ∃ rest, limit = rest + 1 := Nat.exists_eq_add_one.mpr fits
      obtain rfl : count = 0 := Nat.lt_one_iff.mp cut
      rfl
  | @inner group groups announces _ missing =>
      intro limit offset count fits cut
      rw [List.length_cons] at fits cut
      obtain ⟨limit, rfl⟩ : ∃ rest, limit = rest + 1 := Nat.exists_eq_add_one.mpr (by omega)
      cases count with
      | zero => rfl
      | succ count =>
          have one : Reader.byte ⟨offset, group :: groups.take count⟩ =
              .ok group ⟨offset + 1, groups.take count⟩ := rfl
          have others := missing limit (offset + 1) count (by omega) (by omega)
          rw [readGroups, List.take_succ_cons, bind_of_ok one,
            if_neg (Bool.eq_false_iff.mp announces), bind_of_error others, Nat.add_assoc,
            Nat.add_comm 1]

/-- A number that is cut lacks one more byte at its end. -/
theorem readUInt32_cut (complete : Groups groups) (few : groups.length ≤ 5)
    (cut : count < groups.length) (offset : Nat) :
    readUInt32 ⟨offset, groups.take count⟩ =
      .error (.truncated (offset + count) 1) ⟨offset + count, []⟩ := by
  have located : Reader.offset ⟨offset, groups.take count⟩ =
      .ok offset ⟨offset, groups.take count⟩ := rfl
  rw [readUInt32, bind_of_ok located]
  exact bind_of_error (readGroups_cut complete offset 5 offset count few cut)

end Leb128

theorem word32_of_lt {cursor : Cursor} (few : cursor.remaining < 4) : Reader.word32 cursor =
    .error (.truncated cursor.offset (4 - cursor.remaining)) cursor :=
  bind_of_error (if_pos few)

/-- Of a preamble that is cut short the word is missing through which the cut goes. -/
theorem Preamble.read_cut {bytes : Bytes} (short : bytes.length < 8) :
    ∃ offset needed left, read (.ofBytes bytes) = .error (.truncated offset needed) left ∧
      bytes.length + needed = if bytes.length < 4 then 4 else 8 := by
  by_cases magic : bytes.length < 4
  · refine ⟨_, _, _, bind_of_error (word32_of_lt magic), ?_⟩
    rw [if_pos magic]
    exact Nat.add_sub_cancel' magic.le
  · have taken : Reader.take 4 (.ofBytes bytes) = .ok (bytes.take 4) ⟨0 + 4, bytes.drop 4⟩ :=
      Script.take_eq_ok.mpr ⟨Nat.le_of_not_lt magic, rfl, rfl⟩
    have first : Reader.word32 (.ofBytes bytes) =
        .ok (UInt32.ofNat (ofLittleEndian (bytes.take 4))) ⟨0 + 4, bytes.drop 4⟩ :=
      bind_of_ok taken
    have long : Cursor.remaining ⟨0 + 4, bytes.drop 4⟩ = bytes.length - 4 := List.length_drop
    have few : Cursor.remaining ⟨0 + 4, bytes.drop 4⟩ < 4 := by omega
    refine ⟨_, _, _, (bind_of_ok first).trans (bind_of_error (word32_of_lt few)), ?_⟩
    rw [if_neg magic, long]
    omega

namespace SectionBytes.Framed

variable {part : SectionBytes} {kind : SectionKind} {count : Nat}

/-- A section that is cut within its size lacks one more byte there. -/
theorem read_cutSize (framed : part.Framed) (known : SectionKind.ofByte? part.id = some kind)
    (cut : count < part.size.length) (offset : Nat) :
    Section.read ⟨offset, part.id :: part.size.take count⟩ =
      .error (.truncated (offset + 1 + count) 1) ⟨offset + 1 + count, []⟩ := by
  have identified := code_cons SectionKind.ofByte? .unknownSection offset part.id
    (part.size.take count)
  rw [known] at identified
  have missing := readUInt32_cut framed.complete framed.few cut (offset + 1)
  rw [Section.read_eq, LocatedSection.header]
  refine bind_of_error ?_
  rw [bind_of_ok identified, bind_of_error missing]

/-- A payload is cut out before it is read. -/
theorem read_cutPayload (framed : part.Framed) (known : SectionKind.ofByte? part.id = some kind)
    (cut : count < part.payload.length) (offset : Nat) :
    ∃ left, Section.read ⟨offset, part.id :: (part.size ++ part.payload.take count)⟩ =
      .error (.truncated (offset + (part.size.length + 1)) (part.payload.length - count)) left := by
  have long : Cursor.remaining ⟨offset + (part.size.length + 1), part.payload.take count⟩ = count :=
    List.length_take_of_le cut.le
  have missing : within part.payload.length
      (blaming kind.name part.payload.length kind.readPayload)
      ⟨offset + (part.size.length + 1), part.payload.take count⟩ = _ :=
    within_of_lt (long.trans_lt cut)
  rw [long] at missing
  rw [framed.read_eq known]
  exact ⟨_, bind_of_error missing⟩

end SectionBytes.Framed

namespace Module

/-- Where some sections behind a preamble end. -/
def stop (parts : List SectionBytes) : Nat := 8 + (parts.flatMap SectionBytes.bytes).length

theorem stop_concat (before : List SectionBytes) (part : SectionBytes) :
    stop (before ++ [part]) = stop before + (1 + part.size.length) + part.payload.length := by
  simp only [stop, List.flatMap_append, List.flatMap_singleton, SectionBytes.bytes,
    List.length_append, List.length_cons]
  omega

/-- If a file that consists of some parts is cut at `k`, then the cut goes through a read that ends
at the other offset. -/
inductive CutsThrough (parts : List SectionBytes) (k : Nat) : Nat → Prop where
  | magic (inside : k < 4) : CutsThrough parts k 4
  | version (behind : 4 ≤ k) (inside : k < 8) : CutsThrough parts k 8
  | size {before after : List SectionBytes} {part : SectionBytes}
      (split : parts = before ++ part :: after) (behind : stop before < k)
      (inside : k < stop before + (1 + part.size.length)) : CutsThrough parts k (k + 1)
  | payload {before after : List SectionBytes} {part : SectionBytes}
      (split : parts = before ++ part :: after)
      (behind : stop before + (1 + part.size.length) ≤ k) (inside : k < stop (before ++ [part])) :
      CutsThrough parts k (stop (before ++ [part]))

/-- A cut that does not fall between two sections goes through a read. -/
theorem CutsThrough.exists {parts : List SectionBytes} {k : Nat} (inside : k < stop parts)
    (between : ∀ before after, parts = before ++ after → k ≠ stop before) :
    ∃ stop, CutsThrough parts k stop := by
  by_cases magic : k < 4
  · exact ⟨4, .magic magic⟩
  by_cases version : k < 8
  · exact ⟨8, .version (Nat.le_of_not_lt magic) version⟩
  suffices later : ∀ before after, parts = before ++ after → stop before ≤ k →
      ∃ stop, CutsThrough parts k stop from later [] parts rfl (Nat.le_of_not_lt version)
  intro before after
  induction after generalizing before with
  | nil =>
      intro split behind
      rw [List.append_nil] at split
      rw [split] at inside
      omega
  | cons part after later =>
      intro split behind
      by_cases here : k < stop (before ++ [part])
      · have apart := between before (part :: after) split
        by_cases sized : k < stop before + (1 + part.size.length)
        · exact ⟨_, .size split (by omega) sized⟩
        · exact ⟨_, .payload split (Nat.le_of_not_lt sized) here⟩
      · have others : parts = before ++ [part] ++ after := by
          rw [split, List.append_assoc, List.singleton_append]
        exact later (before ++ [part]) others (Nat.le_of_not_lt here)

/-! ## Modules that are cut short -/

variable {m : Module} {file : Bytes} {parts before after : List SectionBytes}

/-- The parts of a file take up what stands before their end. -/
theorem length_front (preamble : Preamble) (parts : List SectionBytes) :
    (preamble.write ++ parts.flatMap SectionBytes.bytes).length = stop parts := by
  rw [List.length_append, Preamble.length_write, stop]

/-- A file ends where its last part does. -/
theorem LaidOut.length (laidOut : m.LaidOut file parts) : file.length = stop parts := by
  rw [laidOut.whole, length_front]

/-- In front of a section stands a module with the sections before it. -/
theorem LaidOut.take (laidOut : m.LaidOut file parts) (split : parts = before ++ after) :
    LaidOut { m with sections := m.sections.take before.length } (file.take (stop before))
      before where
  whole := by
    rw [laidOut.whole, split, List.flatMap_append, ← List.append_assoc,
      ← length_front m.preamble before, List.take_left]
  sections := by
    have holds := List.forall₂_take before.length laidOut.sections
    rwa [split, List.take_left] at holds

/-- Each part of a file holds a section. -/
theorem LaidOut.holds (laidOut : m.LaidOut file parts) {part : SectionBytes}
    (split : parts = before ++ part :: after) : ∃ content, part.Holds content := by
  have holds := List.forall₂_drop before.length laidOut.sections
  rw [split, List.drop_left] at holds
  obtain ⟨content, _, one, _, _⟩ := List.forall₂_cons_left_iff.mp holds
  exact ⟨content, one⟩

/-- A cut inside a section leaves a module and the beginning of that section. -/
theorem LaidOut.take_inside (laidOut : m.LaidOut file parts) {part : SectionBytes}
    (split : parts = before ++ part :: after) {k : Nat} (behind : stop before ≤ k)
    (inside : k ≤ stop (before ++ [part])) :
    file.take k = file.take (stop before) ++ part.bytes.take (k - stop before) := by
  have enough : k - stop before ≤ part.bytes.length := by
    rw [stop_concat] at inside
    simp only [SectionBytes.bytes, List.length_cons, List.length_append]
    omega
  obtain ⟨more, rfl⟩ := Nat.exists_eq_add_of_le behind
  rw [Nat.add_sub_cancel_left] at enough ⊢
  rw [laidOut.whole, split, List.flatMap_append, List.flatMap_cons, ← List.append_assoc,
    ← length_front m.preamble before, List.take_left, List.take_length_add_append,
    List.take_append_of_le_length enough]

/-- If the section that is cut lacks bytes, then so does the file. -/
theorem LaidOut.decode_take_of_error (laidOut : m.LaidOut file parts) {part : SectionBytes}
    (split : parts = before ++ part :: after) {k : Nat} (behind : stop before < k)
    (inside : k ≤ stop (before ++ [part])) {left : Cursor} {fault : DecodeError}
    (failed : Section.read ⟨stop before, part.bytes.take (k - stop before)⟩ = .error fault left) :
    decode (file.take k) = .error fault := by
  have more : part.bytes.take (k - stop before) ≠ [] := by
    rw [← List.length_pos_iff, List.length_take, SectionBytes.bytes, List.length_cons]
    omega
  have sections : untilEmpty Section.read ⟨stop before, part.bytes.take (k - stop before)⟩ =
      .error fault left := untilEmpty_of_error more failed
  have front := laidOut.take split
  rw [laidOut.take_inside split behind.le inside, front.decode_followed, front.length, Reader.value,
    sections]
  rfl

/-- A read that is cut lacks what it would have gone on to read. -/
theorem LaidOut.decode_take_of_cutsThrough (laidOut : m.LaidOut file parts) {k stop : Nat}
    (below : k < file.length) (cut : CutsThrough parts k stop) :
    ∃ offset needed, decode (file.take k) = .error (.truncated offset needed) ∧
      k + needed = stop := by
  have preamble (inside : k < 8) : ∃ offset needed,
      decode (file.take k) = .error (.truncated offset needed) ∧
        k + needed = if k < 4 then 4 else 8 := by
    have long : (file.take k).length = k := List.length_take_of_le below.le
    obtain ⟨offset, needed, left, failed, ends⟩ := Preamble.read_cut (long.trans_lt inside)
    rw [long] at ends
    refine ⟨offset, needed, ?_, ends⟩
    rw [decode, Reader.value, read, bind_of_error failed]
  -- Each place where a file can be cut has its own read that finds too little.
  cases cut with
  | magic inside =>
      have missing := preamble (by omega)
      rwa [if_pos inside] at missing
  | version behind inside =>
      have missing := preamble inside
      rwa [if_neg (Nat.not_lt.mpr behind)] at missing
  | @size before after part split behind inside =>
      obtain ⟨content, holds⟩ := laidOut.holds split
      obtain ⟨count, same⟩ : ∃ count, k - Module.stop before = count + 1 :=
        Nat.exists_eq_add_one.mpr (by omega)
      have few : count < part.size.length := by omega
      have taken : part.bytes.take (k - Module.stop before) = part.id :: part.size.take count := by
        rw [same, SectionBytes.bytes, List.take_succ_cons, List.take_append_of_le_length few.le]
      have failed := holds.read_cutSize holds.known few (Module.stop before)
      rw [← taken] at failed
      have ends : k ≤ Module.stop (before ++ [part]) := by
        rw [stop_concat]
        omega
      exact ⟨_, 1, laidOut.decode_take_of_error split behind ends failed, rfl⟩
  | @payload before after part split behind inside =>
      obtain ⟨content, holds⟩ := laidOut.holds split
      have whole := stop_concat before part
      obtain ⟨count, same⟩ := Nat.exists_eq_add_of_le behind
      have few : count < part.payload.length := by omega
      have taken : part.bytes.take (k - Module.stop before) =
          part.id :: (part.size ++ part.payload.take count) := by
        have read : k - Module.stop before = part.size.length + count + 1 := by omega
        rw [read, SectionBytes.bytes, List.take_succ_cons, List.take_length_add_append]
      obtain ⟨left, failed⟩ := holds.read_cutPayload holds.known few (Module.stop before)
      rw [← taken] at failed
      refine ⟨_, _, laidOut.decode_take_of_error split (by omega) inside.le failed, ?_⟩
      omega

/-- **Truncation is noticed.** A file that holds a module consists of its preamble and its sections.
If it is cut behind the preamble or where a section ends, then the module with the sections up to
there is left. If it is cut elsewhere, then it is truncated, and the bytes that are needed reach to
the end of the read through which the cut goes. -/
theorem decode_take (decoded : decode file = .ok m) :
    (∃ parts, m.LaidOut file parts) ∧ ∀ parts, m.LaidOut file parts → ∀ k < file.length,
      (∀ before after, parts = before ++ after → k = stop before →
        decode (file.take k) = .ok { m with sections := m.sections.take before.length }) ∧
      ((∀ before after, parts = before ++ after → k ≠ stop before) →
        ∃ offset needed, decode (file.take k) = .error (.truncated offset needed) ∧
          CutsThrough parts k (k + needed)) := by
  refine ⟨decode_eq_ok_iff.mp decoded, fun parts laidOut k below => ⟨?_, fun between => ?_⟩⟩
  · rintro before after split rfl
    exact decode_eq_ok_iff.mpr ⟨before, laidOut.take split⟩
  · obtain ⟨stop, cut⟩ := CutsThrough.exists (laidOut.length ▸ below) between
    obtain ⟨offset, needed, failed, ends⟩ := laidOut.decode_take_of_cutsThrough below cut
    exact ⟨offset, needed, failed, ends.symm ▸ cut⟩

/-- Two sections, the first of which has a size of two groups. -/
def startAndCount : List SectionBytes := [⟨0x08, [0x81, 0x00], [0x05]⟩, ⟨0x0c, [0x01], [0x07]⟩]

def startAndCountFile : Bytes := Preamble.write {} ++ startAndCount.flatMap SectionBytes.bytes

/-- Where a file of two small sections can be cut. -/
theorem decode_take_startAndCount :
    decode startAndCountFile = .ok { sections := [.start 5, .dataCount 7] } ∧
      LaidOut { sections := [.start 5, .dataCount 7] } startAndCountFile startAndCount ∧
      decode (startAndCountFile.take 12) = .ok { sections := [.start 5] } ∧
      (∀ before after, startAndCount = before ++ after → 10 ≠ stop before) ∧
      ∃ offset needed, decode (startAndCountFile.take 10) = .error (.truncated offset needed) ∧
        CutsThrough startAndCount 10 (10 + needed) := by
  have decoded : decode startAndCountFile = .ok { sections := [.start 5, .dataCount 7] } := by
    decide +kernel
  have first : SectionKind.start.readPayload ⟨0, [0x05]⟩ = .ok (.start 5) ⟨1, []⟩ := rfl
  have second : SectionKind.dataCount.readPayload ⟨0, [0x07]⟩ = .ok (.dataCount 7) ⟨1, []⟩ := rfl
  have start : SectionBytes.Holds ⟨0x08, [0x81, 0x00], [0x05]⟩ (.start 5) :=
    ⟨⟨.inner rfl (.last rfl), by decide, rfl, by decide⟩, rfl,
      SectionKind.start.relocatable.readsAll first rfl⟩
  have count : SectionBytes.Holds ⟨0x0c, [0x01], [0x07]⟩ (.dataCount 7) :=
    ⟨⟨.last rfl, by decide, rfl, by decide⟩, rfl,
      SectionKind.dataCount.relocatable.readsAll second rfl⟩
  have laidOut : LaidOut { sections := [.start 5, .dataCount 7] } startAndCountFile startAndCount :=
    ⟨rfl, .cons start (.cons count .nil)⟩
  have between : ∀ before after, startAndCount = before ++ after → 10 ≠ stop before := by
    intro before after split
    have front : before = startAndCount.take before.length := by rw [split, List.take_left]
    have few : before.length ≤ 2 := by
      have long := congrArg List.length split
      rw [List.length_append] at long
      exact (Nat.le_add_right _ _).trans long.ge
    have apart : ∀ count ≤ 2, 10 ≠ stop (startAndCount.take count) := by decide
    rw [front]
    exact apart before.length few
  obtain ⟨_, cuts⟩ := decode_take decoded
  have behind := (cuts startAndCount laidOut 12 (by decide)).1 [⟨0x08, [0x81, 0x00], [0x05]⟩]
    [⟨0x0c, [0x01], [0x07]⟩] rfl rfl
  have inside := (cuts startAndCount laidOut 10 (by decide)).2 between
  exact ⟨decoded, laidOut, behind, between, inside⟩

end Module

end WasmGas

import WasmGas.Proofs.Wire.Moves

/-! # Sections in a file

A section stands in a file as its id, the groups of its size and a payload (`SectionBytes`). The
files that hold a module are those that consist of its preamble and of bytes that hold its sections,
one after another (`Module.decode_eq_ok_iff`). Nothing goes from one section to the next but the
offset: what follows a module in a file is read as if it followed any other preamble, and only the
offsets in faults are larger (`Module.decode_append`).
-/

namespace WasmGas

open Reader Leb128

/-! ## Entries up to the end -/

namespace Reader

variable {α β : Type}

/-- What a reader that moves gives does not change, and its fault moves along. -/
theorem Movable.value {reader : Reader α} (movable : Movable reader) (distance : Nat)
    (cursor : Cursor) :
    reader.value (cursor.move distance) = (reader.value cursor).mapError (·.move distance) := by
  rw [Reader.value, Reader.value, movable distance cursor]
  cases reader cursor <;> rfl

/-- Whatever is read takes up some bytes. -/
def Shrinks (entry : Reader α) : Prop :=
  ∀ ⦃cursor after : Cursor⦄ ⦃a : α⦄, entry cursor = .ok a after →
    after.remaining < cursor.remaining

/-- The limit does not matter as long as there are no more bytes. -/
theorem untilEmptyWithin_eq {entry : Reader α} (shrinks : Shrinks entry) {limit : Nat}
    {cursor : Cursor} (enough : cursor.remaining ≤ limit) :
    untilEmptyWithin entry limit cursor = untilEmpty entry cursor := by
  suffices same : ∀ limit other {cursor : Cursor}, cursor.remaining ≤ limit →
      cursor.remaining ≤ other →
        untilEmptyWithin entry limit cursor = untilEmptyWithin entry other cursor from
    same limit cursor.remaining enough le_rfl
  -- An entry may take up several bytes, and both limits lose only one.
  intro limit
  induction limit with
  | zero =>
      rintro other ⟨offset, bytes⟩ few _
      have empty : bytes = [] := List.length_eq_zero_iff.mp (Nat.le_zero.mp few)
      rw [empty, untilEmptyWithin_nil, untilEmptyWithin_nil]
  | succ limit same =>
      rintro other ⟨offset, bytes⟩ enough room
      by_cases empty : bytes = []
      · rw [empty, untilEmptyWithin_nil, untilEmptyWithin_nil]
      · have positive := List.length_pos_iff.mpr empty
        obtain ⟨other, rfl⟩ : ∃ less, other = less + 1 :=
          Nat.exists_eq_add_one.mpr (lt_of_lt_of_le positive room)
        rw [untilEmptyWithin_succ empty, untilEmptyWithin_succ empty]
        cases found : entry ⟨offset, bytes⟩ with
        | ok head between =>
            have fewer := shrinks found
            have others : untilEmptyWithin entry limit between =
                untilEmptyWithin entry other between :=
              same other (by omega) (by omega)
            rw [bind_of_ok found, bind_of_ok found]
            exact bind_eq_bind others _
        | error fault left => rw [bind_of_error found, bind_of_error found]

/-- What is read until nothing is left begins with its first entry. -/
theorem untilEmpty_of_ok {entry : Reader α} (shrinks : Shrinks entry) {cursor between : Cursor}
    {head : α} (found : entry cursor = .ok head between) :
    untilEmpty entry cursor =
      (untilEmpty entry >>= fun tail => pure (head :: tail)) between := by
  have fewer := shrinks found
  have more : cursor.rest ≠ [] := List.length_pos_iff.mp (Nat.zero_lt_of_lt fewer)
  rw [← untilEmptyWithin_eq shrinks (Nat.le_succ cursor.remaining), untilEmptyWithin_succ more,
    bind_of_ok found]
  exact bind_eq_bind (untilEmptyWithin_eq shrinks fewer.le) _

/-- What is read until nothing is left fails where its first entry does. -/
theorem untilEmpty_of_error {entry : Reader α} {cursor left : Cursor} {fault : DecodeError}
    (more : cursor.rest ≠ []) (failed : entry cursor = .error fault left) :
    untilEmpty entry cursor = .error fault left := by
  obtain ⟨less, long⟩ : ∃ less, cursor.remaining = less + 1 :=
    Nat.exists_eq_add_one.mpr (List.length_pos_iff.mpr more)
  change untilEmptyWithin entry cursor.remaining cursor = _
  rw [long, untilEmptyWithin_succ more, bind_of_error failed]

/-- Entries that stand in front of others are read before them. -/
theorem untilEmpty_append {entry : Reader α} (shrinks : Shrinks entry) {bytes : β → Bytes}
    {parts : List β} {entries : List α}
    (read : List.Forall₂ (fun part a => entry.ReadsBack a (bytes part)) parts entries)
    (offset : Nat) (following : Bytes) :
    untilEmpty entry ⟨offset, parts.flatMap bytes ++ following⟩ =
      (untilEmpty entry >>= fun others => pure (entries ++ others))
        ⟨offset + (parts.flatMap bytes).length, following⟩ := by
  induction read generalizing offset with
  | nil =>
      change _ = (untilEmpty entry >>= pure) _
      rw [bind_pure]
      rfl
  | @cons part head parts tail one _ others =>
      rw [List.flatMap_cons, List.append_assoc, untilEmpty_of_ok shrinks (one offset _),
        List.length_append, ← Nat.add_assoc]
      refine (bind_eq_bind (others (offset + (bytes part).length)) _).trans ?_
      rw [bind_assoc]
      simp only [pure_bind, List.cons_append]

/-- If each entry leaves a trace in the bytes, then so do all of them. -/
theorem exists_parts_of_untilEmpty {entry : Reader α} (shrinks : Shrinks entry)
    {bytes : β → Bytes} {holds : β → α → Prop}
    (each : ∀ ⦃cursor after : Cursor⦄ ⦃a : α⦄, entry cursor = .ok a after →
      ∃ part, holds part a ∧ cursor.Advances (bytes part) after)
    {cursor after : Cursor} {entries : List α}
    (read : untilEmpty entry cursor = .ok entries after) :
    ∃ parts, List.Forall₂ holds parts entries ∧ cursor.rest = parts.flatMap bytes := by
  induction entries generalizing cursor with
  | nil =>
      refine ⟨[], .nil, ?_⟩
      by_contra more
      cases found : entry cursor with
      | ok head between =>
          rw [untilEmpty_of_ok shrinks found] at read
          obtain ⟨_, _, _, put⟩ := bind_eq_ok.mp read
          cases put
      | error fault left =>
          rw [untilEmpty_of_error more found] at read
          cases read
  | cons head tail parted =>
      have more : cursor.rest ≠ [] := by
        obtain ⟨offset, rest⟩ := cursor
        rintro rfl
        cases read
      cases found : entry cursor with
      | ok first between =>
          rw [untilEmpty_of_ok shrinks found] at read
          obtain ⟨_, _, others, put⟩ := bind_eq_ok.mp read
          cases put
          obtain ⟨part, one, advances⟩ := each found
          obtain ⟨parts, rest, whole⟩ := parted others
          refine ⟨part :: parts, .cons one rest, ?_⟩
          rw [advances.rest, whole, List.flatMap_cons]
      | error fault left =>
          rw [untilEmpty_of_error more found] at read
          cases read

/-- What stands behind a region does not matter for it. -/
theorem value_exactly_append (region : String) (inner : Reader α) (offset : Nat)
    (content following : Bytes) :
    (exactly region content.length inner).value ⟨offset, content ++ following⟩ =
      (exactly region content.length inner).value ⟨offset, content⟩ := by
  suffices same : ∃ result, ∀ after,
      (exactly region content.length inner).value ⟨offset, content ++ after⟩ = result by
    obtain ⟨result, read⟩ := same
    have alone := read []
    rw [List.append_nil] at alone
    rw [read following, alone]
  have enough (after : Bytes) :
      content.length ≤ Cursor.remaining ⟨offset, content ++ after⟩ := by
    rw [Cursor.remaining, List.length_append]
    exact Nat.le_add_right _ _
  have window (after : Bytes) :
      Cursor.window ⟨offset, content ++ after⟩ content.length = ⟨offset, content⟩ := by
    rw [Cursor.window, List.take_left]
  cases found : inner ⟨offset, content⟩ with
  | ok a left =>
      refine ⟨if left.offset - offset = content.length then .ok a
        else .error (.sizeMismatch region content.length (left.offset - offset)), fun after => ?_⟩
      have cut : within content.length inner ⟨offset, content ++ after⟩ =
          .ok (a, left.offset - offset)
            (Cursor.advance ⟨offset, content ++ after⟩ content.length) := by
        rw [within_of_le (enough after), window after, found]
      rw [Reader.value, exactly, bind_of_ok cut]
      by_cases whole : left.offset - offset = content.length
      · simp only [whole, ↓reduceIte]
        rfl
      · simp only [whole, ↓reduceIte]
        rfl
  | error fault left =>
      refine ⟨.error fault, fun after => ?_⟩
      have cut : within content.length inner ⟨offset, content ++ after⟩ =
          .error fault (Cursor.advance ⟨offset, content ++ after⟩ content.length) := by
        rw [within_of_le (enough after), window after, found]
      rw [Reader.value, exactly, bind_of_error cut]

theorem code_cons (ofByte? : UInt8 → Option α) (fault : UInt8 → Nat → DecodeError) (offset : Nat)
    (head : UInt8) (tail : Bytes) :
    code ofByte? fault ⟨offset, head :: tail⟩ =
      match ofByte? head with
      | some a => .ok a ⟨offset + 1, tail⟩
      | none => .error (fault head offset) ⟨offset + 1, tail⟩ := by
  change (match ofByte? head with
    | some a => pure a
    | none => throw (fault head offset) : Reader α) ⟨offset + 1, tail⟩ = _
  cases ofByte? head <;> rfl

/-- A code uses up one byte. -/
theorem advances_of_code {ofByte? : UInt8 → Option α} {fault : UInt8 → Nat → DecodeError}
    {cursor after : Cursor} {a : α} (read : code ofByte? fault cursor = .ok a after) :
    ∃ head, ofByte? head = some a ∧ cursor.Advances [head] after := by
  obtain ⟨offset, bytes⟩ := cursor
  cases bytes with
  | nil => cases read
  | cons head tail =>
      rw [code_cons] at read
      cases known : ofByte? head with
      | some b =>
          rw [known] at read
          cases read
          exact ⟨head, known, rfl, rfl⟩
      | none =>
          rw [known] at read
          cases read

end Reader

/-! ## Bytes of a section -/

/-- The bytes of a section: its id, the groups of its size and its payload. -/
structure SectionBytes where
  id : UInt8
  size : Bytes
  payload : Bytes
  deriving DecidableEq, Repr

namespace SectionBytes

def bytes (part : SectionBytes) : Bytes := part.id :: (part.size ++ part.payload)

/-- The size that is declared is the length of the payload. -/
structure Framed (part : SectionBytes) : Prop where
  complete : Groups part.size
  few : part.size.length ≤ 5
  declared : unsigned part.size = part.payload.length
  small : part.payload.length < UInt32.size

/-- The payload is that of a section, and the id that of its kind. -/
structure Holds (part : SectionBytes) (content : Section) : Prop extends Framed part where
  identified : part.id = content.kind.toByte
  filled : content.kind.readPayload.ReadsAll content part.payload

variable {part : SectionBytes}

/-- The size of a framed section is read as the length of its payload. -/
theorem Framed.readsBack_size (framed : part.Framed) :
    readUInt32.ReadsBack (UInt32.ofNat part.payload.length) part.size := by
  refine .ofOffset fun start => ?_
  apply (readsBack_readGroups framed.complete start 5 framed.few).last
  simp only [toNat_eq_unsigned, framed.declared, framed.small, ↓reduceIte]
  exact readsBack_pure _

/-- The front of a framed section is read as its kind and its size. -/
theorem Framed.readsBack_header (framed : part.Framed) {kind : SectionKind}
    (known : SectionKind.ofByte? part.id = some kind) :
    LocatedSection.header.ReadsBack (kind, UInt32.ofNat part.payload.length)
      (part.id :: part.size) :=
  (readsBack_code known).bind (framed.readsBack_size.map (Prod.mk kind))

/-- Behind the id and the size the payload is read as a region. -/
theorem Framed.read_eq (framed : part.Framed) {kind : SectionKind}
    (known : SectionKind.ofByte? part.id = some kind) (offset : Nat) (content : Bytes) :
    Section.read ⟨offset, part.id :: (part.size ++ content)⟩ =
      exactly kind.name part.payload.length
        (blaming kind.name part.payload.length kind.readPayload)
        ⟨offset + (part.size.length + 1), content⟩ := by
  have declared := framed.readsBack_header known offset content
  rw [List.cons_append] at declared
  rw [Section.read_eq, bind_of_ok declared, UInt32.toNat_ofNat_of_lt' framed.small]
  rfl

/-- A section is read from its own bytes, whatever stands around them. -/
theorem Framed.value_read (framed : part.Framed) (offset : Nat) (following : Bytes) :
    Section.read.value ⟨offset, part.bytes ++ following⟩ =
      (Section.read.value ⟨0, part.bytes⟩).mapError (·.move offset) := by
  have alone : Section.read.value ⟨offset, part.bytes ++ following⟩ =
      Section.read.value ⟨offset, part.bytes⟩ := by
    rw [bytes, List.cons_append, List.append_assoc]
    cases known : SectionKind.ofByte? part.id with
    | some kind =>
        have read (content : Bytes) := framed.read_eq known offset content
        rw [Reader.value, Reader.value, read, read]
        exact value_exactly_append kind.name _ _ part.payload following
    | none =>
        have unknown (tail : Bytes) : Section.read ⟨offset, part.id :: tail⟩ =
            .error (.unknownSection part.id offset) ⟨offset + 1, tail⟩ := by
          have failed := code_cons SectionKind.ofByte? .unknownSection offset part.id tail
          rw [known] at failed
          rw [Section.read_eq]
          exact bind_of_error (bind_of_error failed)
        rw [Reader.value, Reader.value, unknown, unknown]
  rw [alone, ← Section.relocatable.movable.value offset ⟨0, part.bytes⟩, Cursor.move,
    Nat.zero_add]

/-- A part that holds a section begins with the byte of its kind. -/
theorem Holds.known {content : Section} (holds : part.Holds content) :
    SectionKind.ofByte? part.id = some content.kind := by
  rw [holds.identified, SectionKind.ofByte?_toByte]

/-- A part that holds a section is read as it. -/
theorem Holds.readsBack {content : Section} (holds : part.Holds content) :
    Section.read.ReadsBack content part.bytes := by
  intro offset following
  have region : (exactly content.kind.name part.payload.length (blaming content.kind.name
      part.payload.length content.kind.readPayload)).ReadsBack content part.payload :=
    readsBack_exactly (readsAll_blaming holds.filled)
  rw [bytes, List.cons_append, List.append_assoc, holds.toFramed.read_eq holds.known, region,
    List.length_cons, List.length_append]
  have stop : offset + (part.size.length + 1) + part.payload.length =
      offset + (part.size.length + part.payload.length + 1) := by omega
  rw [stop]

end SectionBytes

theorem Section.shrinks : Shrinks Section.read := fun _ _ _ => Section.remaining_lt

/-- A section that was read stands in the bytes that it took up. -/
theorem Section.exists_holds {cursor after : Cursor} {content : Section}
    (read : Section.read cursor = .ok content after) :
    ∃ part : SectionBytes, part.Holds content ∧ cursor.Advances part.bytes after := by
  rw [Section.read_eq] at read
  obtain ⟨⟨kind, size⟩, between, declared, read⟩ := bind_eq_ok.mp read
  obtain ⟨_, inner, identified, sized⟩ := bind_eq_ok.mp declared
  obtain ⟨_, _, sized, put⟩ := bind_eq_ok.mp sized
  cases put
  obtain ⟨id, known, one⟩ := advances_of_code identified
  obtain ⟨groups, complete, few, value, second⟩ := advances_of_readUInt32 sized
  obtain ⟨⟨found, consumed⟩, last, cut, checked⟩ := bind_eq_ok.mp read
  dsimp only at checked cut
  by_cases whole : consumed = size.toNat
  case neg =>
    rw [if_neg whole] at checked
    cases checked
  rw [if_pos whole] at checked
  cases checked
  obtain ⟨enough, rfl, left, blamed, taken⟩ := Script.within_eq_ok cut
  have payload : kind.readPayload ⟨between.offset, between.rest.take size.toNat⟩ =
      .ok content left := by
    rw [blaming] at blamed
    cases filled : kind.readPayload ⟨between.offset, between.rest.take size.toNat⟩ with
    | ok other stop =>
        rw [filled] at blamed
        exact blamed
    | error fault stop =>
        rw [filled] at blamed
        cases blamed
  have long : (between.rest.take size.toNat).length = size.toNat := List.length_take_of_le enough
  obtain ⟨used, advances⟩ := kind.relocatable.advances payload
  -- The number of bytes that were used up was checked, so none of the payload is left.
  have ends : left.rest = [] := by
    have lengths := congrArg List.length advances.rest
    have moved := advances.offset
    rw [List.length_append] at lengths
    dsimp only at lengths moved
    rw [← List.length_eq_zero_iff]
    omega
  obtain ⟨_, _, _, ⟨rfl, _⟩, _⟩ := kind.rewrites payload
  refine ⟨⟨id, groups, between.rest.take size.toNat⟩, ⟨⟨complete, few, ?_, ?_⟩, ?_, ?_⟩, ?_⟩
  · exact value.trans long.symm
  · exact long.trans_lt size.toNat_lt
  · exact SectionKind.ofByte?_eq_some_iff.mp known
  · exact content.kind.relocatable.readsAll payload ends
  · exact (one.trans second).trans (Script.advances_take enough)

theorem advances_of_word32 {cursor after : Cursor} {word : UInt32}
    (read : Reader.word32 cursor = .ok word after) : cursor.Advances (word32 word) after := by
  obtain ⟨bytes, _, taken, put⟩ := bind_eq_ok.mp read
  cases put
  obtain ⟨enough, rfl, rfl⟩ := Script.take_eq_ok.mp taken
  rw [word32_ofLittleEndian (List.length_take_of_le enough)]
  exact Script.advances_take enough

/-- The start of a file uses up its own bytes. -/
theorem Preamble.advances_of_read {cursor after : Cursor} {preamble : Preamble}
    (found : read cursor = .ok preamble after) : cursor.Advances preamble.write after := by
  obtain ⟨magic, between, first, found⟩ := bind_eq_ok.mp found
  obtain ⟨version, last, second, put⟩ := bind_eq_ok.mp found
  cases put
  exact (advances_of_word32 first).trans (advances_of_word32 second)

/-- Any eight bytes can be the start of a file. -/
theorem Preamble.exists_write_eq {front : Bytes} (eight : front.length = 8) :
    ∃ preamble : Preamble, preamble.write = front := by
  have first : (front.take 4).length = 4 := List.length_take_of_le (by omega)
  have second : (front.drop 4).length = 4 := by
    rw [List.length_drop, eight]
  refine ⟨⟨UInt32.ofNat (ofLittleEndian (front.take 4)),
    UInt32.ofNat (ofLittleEndian (front.drop 4))⟩, ?_⟩
  rw [write, word32_ofLittleEndian first, word32_ofLittleEndian second, List.take_append_drop]

theorem Preamble.length_write (preamble : Preamble) : preamble.write.length = 8 := by
  rw [write, List.length_append, word32, word32, length_littleEndian, length_littleEndian]

namespace Module

/-- A file consists of the preamble of a module and of parts that hold its sections. -/
structure LaidOut (m : Module) (file : Bytes) (parts : List SectionBytes) : Prop where
  whole : file = m.preamble.write ++ parts.flatMap SectionBytes.bytes
  sections : List.Forall₂ SectionBytes.Holds parts m.sections

/-- Behind the sections of a module others are read from where they begin. -/
theorem LaidOut.decode_followed {m : Module} {file : Bytes} {parts : List SectionBytes}
    (laidOut : m.LaidOut file parts) (following : Bytes) :
    decode (file ++ following) =
      ((untilEmpty Section.read).value ⟨file.length, following⟩).map
        fun others => { m with sections := m.sections ++ others } := by
  have start := Preamble.readsBack m.preamble 0 (parts.flatMap SectionBytes.bytes ++ following)
  have sections := untilEmpty_append Section.shrinks
    (laidOut.sections.imp fun _ _ holds => holds.readsBack) (0 + m.preamble.write.length) following
  have stop : 0 + m.preamble.write.length + (parts.flatMap SectionBytes.bytes).length =
      file.length := by
    rw [laidOut.whole, List.length_append, Nat.zero_add]
  rw [stop] at sections
  rw [decode, Reader.value, Cursor.ofBytes, laidOut.whole, List.append_assoc, read,
    bind_of_ok start, ← laidOut.whole]
  cases found : untilEmpty Section.read ⟨file.length, following⟩ with
  | ok others after =>
      rw [bind_of_ok found] at sections
      rw [bind_of_ok sections, Reader.value, found]
      rfl
  | error fault left =>
      rw [bind_of_error found] at sections
      rw [bind_of_error sections, Reader.value, found]
      rfl

/-- The files of a module are those that consist of its preamble and its sections. -/
theorem decode_eq_ok_iff {file : Bytes} {m : Module} :
    decode file = .ok m ↔ ∃ parts, m.LaidOut file parts := by
  constructor
  · intro decoded
    obtain ⟨after, found, _⟩ := read_of_decode decoded
    obtain ⟨preamble, between, first, found⟩ := bind_eq_ok.mp found
    obtain ⟨sections, last, others, put⟩ := bind_eq_ok.mp found
    cases put
    obtain ⟨parts, holds, rest⟩ := exists_parts_of_untilEmpty Section.shrinks
      (fun _ _ _ => Section.exists_holds) others
    refine ⟨parts, ?_, holds⟩
    rw [← rest]
    exact (Preamble.advances_of_read first).rest
  · rintro ⟨parts, laidOut⟩
    have alone := laidOut.decode_followed []
    rw [List.append_nil] at alone
    have nothing : (untilEmpty Section.read).value ⟨file.length, []⟩ = .ok [] := rfl
    rw [alone, nothing, Except.map, List.append_nil]

/-- **Sections are read independently.** What follows a module in a file is read as if it followed
any other preamble, whatever is read or goes wrong; only the offsets in a fault are larger by the
length of the module's sections. And whatever follows a section whose size is that of its payload,
the section is read from its own bytes. -/
theorem decode_append {file : Bytes} {m : Module} (decoded : decode file = .ok m) {front : Bytes}
    (eight : front.length = 8) (following : Bytes) :
    (decode (file ++ following) =
      match decode (front ++ following) with
      | .ok others => .ok { m with sections := m.sections ++ others.sections }
      | .error fault => .error (fault.move (file.length - 8))) ∧
    ∀ part : SectionBytes, part.Framed → ∀ offset,
      Section.read.value ⟨offset, part.bytes ++ following⟩ =
        (Section.read.value ⟨0, part.bytes⟩).mapError (·.move offset) := by
  refine ⟨?_, fun part framed offset => framed.value_read offset following⟩
  obtain ⟨parts, laidOut⟩ := decode_eq_ok_iff.mp decoded
  obtain ⟨preamble, rfl⟩ := Preamble.exists_write_eq eight
  have empty : LaidOut ⟨preamble, []⟩ preamble.write [] := ⟨(List.append_nil _).symm, .nil⟩
  have further : (untilEmpty Section.read).value ⟨file.length, following⟩ =
      ((untilEmpty Section.read).value ⟨8, following⟩).mapError (·.move (file.length - 8)) := by
    have long : 8 + (file.length - 8) = file.length := by
      rw [laidOut.whole, List.length_append, Preamble.length_write]
      omega
    have moved := Section.relocatable.untilEmpty.movable.value (file.length - 8) ⟨8, following⟩
    rwa [Cursor.move, long] at moved
  rw [laidOut.decode_followed, empty.decode_followed, further, eight]
  cases (untilEmpty Section.read).value ⟨8, following⟩ <;> rfl

/-- A section with one signature, of which the only parameter has no type. -/
def untypedSection : SectionBytes := ⟨0x01, [0x85, 0x00], [0x01, 0x60, 0x01, 0x12, 0x00]⟩

/-- A section with an unknown type fails alike behind any start, at its own place. -/
theorem decode_append_untypedSection :
    decode paddedFile = .ok constant ∧ (List.replicate 8 (0xff : UInt8)).length = 8 ∧
      untypedSection.Framed ∧
      decode (List.replicate 8 0xff ++ untypedSection.bytes) =
        .error (.unknownValueType 0x12 14) ∧
      decode (paddedFile ++ untypedSection.bytes) = .error (.unknownValueType 0x12 23) ∧
      Section.read.value ⟨100, untypedSection.bytes ++ untypedSection.bytes⟩ =
        .error (.unknownValueType 0x12 106) := by
  have decoded : decode paddedFile = .ok constant := by decide +kernel
  have eight : (List.replicate 8 (0xff : UInt8)).length = 8 := rfl
  have framed : untypedSection.Framed := ⟨.inner rfl (.last rfl), by decide, rfl, by decide⟩
  have failed : decode (List.replicate 8 0xff ++ untypedSection.bytes) =
      .error (.unknownValueType 0x12 14) := by decide +kernel
  have alone : Section.read.value ⟨0, untypedSection.bytes⟩ =
      .error (.unknownValueType 0x12 6) := by decide +kernel
  obtain ⟨appended, anywhere⟩ := decode_append decoded eight untypedSection.bytes
  rw [failed] at appended
  have moved := anywhere untypedSection framed 100
  rw [alone] at moved
  exact ⟨decoded, eight, framed, failed, appended, moved⟩

end Module

end WasmGas

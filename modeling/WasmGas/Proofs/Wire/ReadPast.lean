import WasmGas.Proofs.Wire.Reencode

/-! # Reads past the end of a section

A reader takes single bytes and runs of bytes off its own cursor, and some of the runs are windows
that it reads entries from. These are its direct reads (`Reader.Script.reads`). A direct read that
goes past the end of the cursor makes the reader fail, and the fault holds where the read began and
how many bytes were lacking (`Reader.Reports`). The sum of the two is the end of the read only if
there was nothing of it at all, and yet a section takes the sum for that end. So a section that is
too short is reported as it should be if none of the read was there, with too low an end if less was
there than lacking, and otherwise not at all: the input is then said to be truncated
(`Module.decode_of_readPast`).
-/

namespace WasmGas

open Leb128

/-- The offset behind the last byte that is left. -/
def Cursor.stop (cursor : Cursor) : Nat := cursor.offset + cursor.remaining

/-- A read of some bytes, whether or not they are there. -/
structure DirectRead where
  offset : Nat
  count : Nat
  deriving DecidableEq, Repr

def DirectRead.stop (read : DirectRead) : Nat := read.offset + read.count

theorem Cursor.Advances.stop_eq {cursor after : Cursor} {used : Bytes}
    (advances : cursor.Advances used after) : after.stop = cursor.stop := by
  rw [stop, stop, remaining, remaining, advances.rest, advances.offset, List.length_append,
    Nat.add_assoc]

namespace Reader

variable {α β : Type}

/-- What is listed for a reader and for the one that goes on where it succeeds. -/
def listBind {γ : Type} (first : Reader α) (list : Cursor → List γ) (later : α → Cursor → List γ)
    (cursor : Cursor) : List γ :=
  list cursor ++
    match first cursor with
    | .ok a after => later a after
    | .error _ _ => []

/-- The bytes of a number, up to the one that announces no other. -/
def groupReads : (limit : Nat) → Cursor → List DirectRead
  | 0 => fun _ => []
  | limit + 1 => listBind byte (fun cursor => [⟨cursor.offset, 1⟩]) fun group =>
    if isLast group then fun _ => [] else groupReads limit

/-- The direct reads from a cursor, up to the first that fails. What is read from a window is not
among them, and neither is what a region is blamed for. -/
def Script.reads : {α : Type} → {reader : Reader α} → Script reader → Cursor → List DirectRead
  | _, _, pure _ => fun _ => []
  | _, _, throw _ => fun _ => []
  | _, _, @bind _ _ first _ one other => listBind first one.reads fun a => (other a).reads
  | _, _, offset => fun _ => []
  | _, _, byte => fun cursor => [⟨cursor.offset, 1⟩]
  | _, _, take count => fun cursor => [⟨cursor.offset, count⟩]
  | _, _, rest => fun cursor => [⟨cursor.offset, cursor.remaining⟩]
  | _, _, uint32 => groupReads 5
  | _, _, int32 => groupReads 5
  | _, _, int64 => groupReads 10
  | _, _, @untilEmpty _ entry script => fun cursor =>
    listUntilEmpty entry script.reads cursor.remaining cursor
  | _, _, within size _ => fun cursor => [⟨cursor.offset, size⟩]
  | _, _, blaming _ _ _ => fun _ => []

/-- While something is left another entry is read. -/
theorem untilEmptyWithin_succ {entry : Reader α} {limit : Nat} {cursor : Cursor}
    (more : cursor.rest ≠ []) :
    untilEmptyWithin entry (limit + 1) cursor =
      (entry >>= fun head => untilEmptyWithin entry limit >>= fun tail => pure (head :: tail))
        cursor := by
  change (if cursor.rest.isEmpty then _ else _ : Reader (List α)) cursor = _
  rw [if_neg (by simpa using more)]

/-- Where nothing is left no entry is read. -/
theorem untilEmptyWithin_nil (entry : Reader α) (limit offset : Nat) :
    untilEmptyWithin entry limit ⟨offset, []⟩ = .ok [] ⟨offset, []⟩ := by
  cases limit <;> rfl

/-- A reader stays on its cursor and fails at the read that goes past the end. -/
structure Reports (reader : Reader α) (reads : Cursor → List DirectRead) : Prop where
  advances : ∀ ⦃cursor after : Cursor⦄ ⦃a : α⦄, reader cursor = .ok a after →
    ∃ used, cursor.Advances used after
  begins : ∀ ⦃cursor : Cursor⦄, ∀ read ∈ reads cursor, read.offset ≤ cursor.stop
  fails : ∀ ⦃cursor : Cursor⦄, ∀ read ∈ reads cursor, cursor.stop < read.stop →
    ∃ left, reader cursor = .error (.truncated read.offset (read.stop - cursor.stop)) left

namespace Reports

/-- A reader that makes no read, or none that can go too far. -/
theorem ofNever {reader : Reader α} {reads : Cursor → List DirectRead}
    (advances : ∀ ⦃cursor after : Cursor⦄ ⦃a : α⦄, reader cursor = .ok a after →
      ∃ used, cursor.Advances used after)
    (inside : ∀ ⦃cursor : Cursor⦄, ∀ read ∈ reads cursor, read.stop ≤ cursor.stop) :
    Reports reader reads where
  advances := advances
  begins := by
    intro cursor read made
    exact (Nat.le_add_right _ _).trans (inside read made)
  fails := by
    intro cursor read made past
    exact absurd (inside read made) (Nat.not_le.mpr past)

/-- A sequence makes the reads of its first part, and then those of its second. -/
theorem bind {first : Reader α} {next : α → Reader β} {reads : Cursor → List DirectRead}
    {later : α → Cursor → List DirectRead} (one : Reports first reads)
    (other : ∀ a, Reports (next a) (later a)) :
    Reports (first >>= next) (listBind first reads later) where
  advances := by
    intro cursor after b read
    obtain ⟨a, between, found, further⟩ := bind_eq_ok.mp read
    obtain ⟨head, moved⟩ := one.advances found
    obtain ⟨tail, moved'⟩ := (other a).advances further
    exact ⟨head ++ tail, moved.trans moved'⟩
  begins := by
    intro cursor read made
    rcases List.mem_append.mp made with made | made
    · exact one.begins read made
    · cases found : first cursor with
      | error fault left =>
          rw [found] at made
          cases made
      | ok a between =>
          rw [found] at made
          obtain ⟨used, moved⟩ := one.advances found
          rw [← moved.stop_eq]
          exact (other a).begins read made
  fails := by
    intro cursor read made past
    rcases List.mem_append.mp made with made | made
    · obtain ⟨left, failed⟩ := one.fails read made past
      exact ⟨left, bind_of_error failed⟩
    · cases found : first cursor with
      | error fault left =>
          rw [found] at made
          cases made
      | ok a between =>
          rw [found] at made
          obtain ⟨used, moved⟩ := one.advances found
          rw [bind_of_ok found, ← moved.stop_eq]
          exact (other a).fails read made (moved.stop_eq ▸ past)

/-- After the last read nothing more is listed. -/
theorem last {first : Reader α} {next : α → Reader β} {reads : Cursor → List DirectRead}
    (one : Reports first reads) (silent : ∀ a, Reports (next a) fun _ => []) :
    Reports (first >>= next) reads := by
  have both := one.bind silent
  have same : listBind first reads (fun _ _ => []) = reads := by
    funext cursor
    cases found : first cursor <;> simp [listBind, found]
  rwa [same] at both

/-- Which reader it is may depend on the cursor. -/
theorem ofEach {reader : Reader α} {reads : Cursor → List DirectRead}
    (each : ∀ cursor, ∃ one list, Reports (α := α) one list ∧ reader cursor = one cursor ∧
      reads cursor = list cursor) : Reports reader reads where
  advances := by
    intro cursor after a read
    obtain ⟨one, list, reports, same, _⟩ := each cursor
    exact reports.advances (same ▸ read)
  begins := by
    intro cursor read made
    obtain ⟨one, list, reports, _, listed⟩ := each cursor
    exact reports.begins read (listed ▸ made)
  fails := by
    intro cursor read made past
    obtain ⟨one, list, reports, same, listed⟩ := each cursor
    rw [same]
    exact reports.fails read (listed ▸ made) past

theorem pure (a : α) : Reports (Pure.pure a) fun _ => [] := by
  apply ofNever
  · intro cursor after b read
    cases read
    exact ⟨[], .refl cursor⟩
  · intro cursor read made
    cases made

theorem throw (fault : DecodeError) :
    Reports (MonadExcept.throw fault : Reader α) fun _ => [] := by
  apply ofNever
  · intro cursor after b read
    cases read
  · intro cursor read made
    cases made

theorem offset : Reports Reader.offset fun _ => [] := by
  apply ofNever
  · intro cursor after start read
    cases read
    exact ⟨[], .refl cursor⟩
  · intro cursor read made
    cases made

/-- To look where the cursor is takes no bytes. -/
theorem ofOffset {next : Nat → Reader β} {reads : Cursor → List DirectRead}
    (each : ∀ start, Reports (next start) reads) : Reports (Reader.offset >>= next) reads :=
  offset.bind each

theorem byte : Reports Reader.byte fun cursor => [⟨cursor.offset, 1⟩] where
  advances := by
    intro cursor after value read
    obtain ⟨used, _, moved, _⟩ := Script.rewrites_byte read
    exact ⟨used, moved⟩
  begins := by
    intro cursor read made
    rw [List.mem_singleton.mp made]
    exact Nat.le_add_right _ _
  fails := by
    rintro ⟨start, bytes⟩ read made past
    rw [List.mem_singleton.mp made] at past ⊢
    cases bytes with
    | nil =>
        refine ⟨⟨start, []⟩, ?_⟩
        simp [Reader.byte, DirectRead.stop, Cursor.stop, Cursor.remaining]
    | cons head tail =>
        simp only [DirectRead.stop, Cursor.stop, Cursor.remaining, List.length_cons] at past
        omega

theorem take (count : Nat) :
    Reports (Reader.take count) fun cursor => [⟨cursor.offset, count⟩] where
  advances := by
    intro cursor after bytes read
    obtain ⟨used, _, moved, _⟩ := Script.rewrites_take count read
    exact ⟨used, moved⟩
  begins := by
    intro cursor read made
    rw [List.mem_singleton.mp made]
    exact Nat.le_add_right _ _
  fails := by
    intro cursor read made past
    rw [List.mem_singleton.mp made] at past ⊢
    simp only [DirectRead.stop, Cursor.stop] at past ⊢
    have short : cursor.remaining < count := by omega
    rw [Nat.add_sub_add_left, Reader.take, if_pos short]
    exact ⟨cursor, rfl⟩

theorem rest : Reports Reader.rest fun cursor => [⟨cursor.offset, cursor.remaining⟩] := by
  apply ofNever
  · intro cursor after bytes read
    obtain ⟨used, _, moved, _⟩ := Script.rewrites_rest read
    exact ⟨used, moved⟩
  · intro cursor read made
    rw [List.mem_singleton.mp made]
    exact le_rfl

/-! ## Numbers -/

/-- Groups are reads of one byte each, up to the last one. -/
theorem readGroups (start limit : Nat) :
    Reports (Leb128.readGroups start limit) (groupReads limit) := by
  induction limit with
  | zero => exact throw (.varintOverflow start)
  | succ limit reports =>
      refine byte.bind fun group => ?_
      by_cases last : isLast group = true
      · rw [if_pos last, if_pos last]
        exact pure [group]
      · rw [if_neg last, if_neg last]
        exact reports.last fun groups => pure (group :: groups)

/-- What is made of the groups of a number takes no further bytes. -/
theorem number {limit : Nat} {judge : Nat → Bytes → Reader α}
    (silent : ∀ start groups, Reports (judge start groups) fun _ => []) :
    Reports (Reader.offset >>= fun start => Leb128.readGroups start limit >>= judge start)
      (groupReads limit) :=
  ofOffset fun start => (readGroups start limit).last (silent start)

theorem ite {p : Prop} [Decidable p] {one other : Reader α} {reads : Cursor → List DirectRead}
    (first : Reports one reads) (second : Reports other reads) :
    Reports (if p then one else other) reads := by
  by_cases holds : p
  · rwa [if_pos holds]
  · rwa [if_neg holds]

theorem readUInt32 : Reports Leb128.readUInt32 (groupReads 5) :=
  number fun _ _ => ite (pure _) (throw _)

theorem readInt32 : Reports Leb128.readInt32 (groupReads 5) :=
  number fun _ _ => ite (pure _) (throw _)

theorem readInt64 : Reports Leb128.readInt64 (groupReads 10) :=
  number fun _ _ => pure _

/-! ## Regions -/

/-- Entries make their reads until nothing is left. -/
theorem untilEmptyWithin {entry : Reader α} {reads : Cursor → List DirectRead}
    (each : Reports entry reads) (limit : Nat) :
    Reports (Reader.untilEmptyWithin entry limit) (listUntilEmpty entry reads limit) := by
  induction limit with
  | zero => exact pure []
  | succ limit reports =>
      apply ofEach
      intro cursor
      by_cases empty : cursor.rest.isEmpty = true
      · refine ⟨_, _, pure [], ?_, ?_⟩
        · change (if cursor.rest.isEmpty then _ else _ : Reader (List α)) cursor = _
          rw [if_pos empty]
        · rw [listUntilEmpty, if_pos empty]
      · refine ⟨_, _, each.bind fun head => reports.last fun tail => pure (head :: tail), ?_, ?_⟩
        · exact untilEmptyWithin_succ (by simpa using empty)
        · rw [listUntilEmpty, if_neg empty]
          cases found : entry cursor <;> simp only [listBind, found]

theorem untilEmpty {entry : Reader α} {reads : Cursor → List DirectRead}
    (each : Reports entry reads) :
    Reports (Reader.untilEmpty entry) fun cursor =>
      listUntilEmpty entry reads cursor.remaining cursor := by
  apply ofEach
  intro cursor
  exact ⟨_, _, each.untilEmptyWithin cursor.remaining, rfl, rfl⟩

/-- A region is one read of its whole size; what is read inside it is not read here. -/
theorem within (size : Nat) (inner : Reader α) :
    Reports (Reader.within size inner) fun cursor => [⟨cursor.offset, size⟩] := by
  have sliced : Reports (Reader.slice size) fun cursor => [⟨cursor.offset, size⟩] :=
    ofOffset fun start => (take size).last fun bytes => pure (⟨start, bytes⟩ : Cursor)
  refine sliced.last fun window => ?_
  cases found : inner window with
  | ok a left => exact pure (a, left.offset - window.offset)
  | error fault left => exact throw fault

/-- Where a region is blamed, a read that is short inside it is not told as such. -/
theorem blaming (region : String) (size : Nat) {inner : Reader α} {reads : Cursor → List DirectRead}
    (reports : Reports inner reads) :
    Reports (Reader.blaming region size inner) fun _ => [] := by
  apply ofNever
  · intro cursor after a read
    rw [Reader.blaming] at read
    cases found : inner cursor with
    | ok b left =>
        rw [found] at read
        cases read
        exact reports.advances found
    | error fault left =>
        rw [found] at read
        cases read
  · intro cursor read made
    cases made

end Reports

/-- The reads that a script lists are those that its reader makes. -/
theorem Script.reports {reader : Reader α} (script : Script reader) :
    Reports reader script.reads := by
  induction script with
  | pure a => exact .pure a
  | throw fault => exact .throw fault
  | bind one other first later => exact first.bind later
  | offset => exact .offset
  | byte => exact .byte
  | take count => exact .take count
  | rest => exact .rest
  | uint32 => exact .readUInt32
  | int32 => exact .readInt32
  | int64 => exact .readInt64
  | untilEmpty script each => exact each.untilEmpty
  | within size script inner => exact .within size _
  | blaming region size script inner => exact inner.blaming region size

end Reader

/-! ## The section that a read goes past -/

/-- The next bytes as a cursor of their own. -/
def Cursor.window (cursor : Cursor) (size : Nat) : Cursor := ⟨cursor.offset, cursor.rest.take size⟩

theorem Cursor.stop_window {cursor : Cursor} {size : Nat} (inside : size ≤ cursor.remaining) :
    (cursor.window size).stop = cursor.offset + size := by
  rw [stop, remaining, window, List.length_take_of_le inside]

/-- The id of a section and the size that it declares. -/
def LocatedSection.header : Reader (SectionKind × UInt32) := do
  return ⟨← Reader.code SectionKind.ofByte? .unknownSection, ← Leb128.readUInt32⟩

/-- A section has a byte for its kind. -/
theorem LocatedSection.rest_ne_nil_of_header {cursor payload : Cursor} {kind : SectionKind}
    {size : UInt32} (declared : header cursor = .ok (kind, size) payload) : cursor.rest ≠ [] := by
  obtain ⟨_, _, identified, _⟩ := Reader.bind_eq_ok.mp declared
  obtain ⟨start, rest⟩ := cursor
  rintro rfl
  cases identified

namespace Reader

variable {α : Type}

theorem slice_of_lt {size : Nat} {cursor : Cursor} (short : cursor.remaining < size) :
    slice size cursor = .error (.truncated cursor.offset (size - cursor.remaining)) cursor := by
  have failed : take size cursor =
      .error (.truncated cursor.offset (size - cursor.remaining)) cursor := if_pos short
  change (take size >>= fun bytes => Pure.pure (⟨cursor.offset, bytes⟩ : Cursor)) cursor = _
  exact bind_of_error failed

theorem slice_of_le {size : Nat} {cursor : Cursor} (enough : size ≤ cursor.remaining) :
    slice size cursor = .ok (cursor.window size) (cursor.advance size) := by
  have taken : take size cursor = .ok (cursor.rest.take size) (cursor.advance size) :=
    Script.take_eq_ok.mpr ⟨enough, rfl, rfl⟩
  change (take size >>= fun bytes => Pure.pure (⟨cursor.offset, bytes⟩ : Cursor)) cursor = _
  rw [bind_of_ok taken]
  rfl

theorem within_of_lt {size : Nat} {inner : Reader α} {cursor : Cursor}
    (short : cursor.remaining < size) : within size inner cursor =
      .error (.truncated cursor.offset (size - cursor.remaining)) cursor :=
  bind_of_error (slice_of_lt short)

theorem within_of_le {size : Nat} {inner : Reader α} {cursor : Cursor}
    (enough : size ≤ cursor.remaining) : within size inner cursor =
      match inner (cursor.window size) with
      | .ok a left => .ok (a, left.offset - cursor.offset) (cursor.advance size)
      | .error fault _ => .error fault (cursor.advance size) := by
  rw [within, bind_of_ok (slice_of_le enough)]
  cases inner (cursor.window size) <;> rfl

/-- What fails within a region fails the region. -/
theorem exactly_of_error {region : String} {size : Nat} {inner : Reader α} {cursor left : Cursor}
    {fault : DecodeError} (inside : size ≤ cursor.remaining)
    (failed : inner (cursor.window size) = .error fault left) :
    ∃ left, exactly region size inner cursor = .error fault left := by
  have inner : within size inner cursor = .error fault (cursor.advance size) := by
    rw [within_of_le inside, failed]
  exact ⟨_, bind_of_error inner⟩

end Reader

/-- A region is blamed for a read of which less was available in the region than is lacking. What it
is said to take up is then too little by what was available. -/
theorem DecodeError.pastRegion_truncated {region : String}
    {start size offset available lacking : Nat} (there : start + size = offset + available) :
    (truncated offset lacking).pastRegion region start size =
      if available < lacking then sizeMismatch region size (size + lacking - available)
      else truncated offset lacking := by
  rw [pastRegion]
  by_cases many : available < lacking
  · have past : start + size < offset + lacking := by omega
    have consumed : offset + lacking - start = size + lacking - available := by omega
    rw [if_pos past, if_pos many, consumed]
  · have inside : ¬ start + size < offset + lacking := by omega
    rw [if_neg inside, if_neg many]

/-- A fault in the payload of a section may be blamed on the section. -/
theorem Section.read_of_payload {cursor payload left : Cursor} {kind : SectionKind} {size : UInt32}
    {fault : DecodeError} (declared : LocatedSection.header cursor = .ok (kind, size) payload)
    (inside : size.toNat ≤ payload.remaining)
    (failed : kind.readPayload (payload.window size.toNat) = .error fault left) :
    ∃ left, Section.read cursor =
      .error (fault.pastRegion kind.name payload.offset size.toNat) left := by
  obtain ⟨_, between, identified, sized⟩ := Reader.bind_eq_ok.mp declared
  obtain ⟨_, _, sized, put⟩ := Reader.bind_eq_ok.mp sized
  cases put
  have blamed : Reader.blaming kind.name size.toNat kind.readPayload (payload.window size.toNat) =
      .error (fault.pastRegion kind.name payload.offset size.toNat) left := by
    rw [Reader.blaming, failed]
    rfl
  obtain ⟨left, failed⟩ := Reader.exactly_of_error inside blamed
  have located : LocatedSection.read cursor =
      .error (fault.pastRegion kind.name payload.offset size.toNat) left := by
    have start : Reader.offset cursor = .ok cursor.offset cursor := rfl
    rw [LocatedSection.read, Reader.bind_of_ok start, Reader.bind_of_ok identified,
      Reader.bind_of_ok sized, Reader.bind_of_error failed]
  exact ⟨left, Reader.bind_of_error located⟩

/-- A section uses up at least one byte. -/
theorem Section.remaining_lt {cursor after : Cursor} {content : Section}
    (found : Section.read cursor = .ok content after) : after.remaining < cursor.remaining := by
  obtain ⟨used, written, advances, ⟨encoded, _⟩, rewriting⟩ := Section.rewrites found
  have some : 0 < written.length := List.length_pos_iff.mpr (Section.write_ne_nil encoded)
  have taken := rewriting.length_le
  rw [Cursor.remaining, Cursor.remaining, advances.rest, List.length_append]
  omega

namespace Module

/-- A place in a file at which a section may begin: the preamble and all sections before it are
read. -/
inductive SectionAt (bytes : Bytes) : Cursor → Prop where
  | first {preamble : Preamble} {cursor : Cursor} :
      Preamble.read (.ofBytes bytes) = .ok preamble cursor → SectionAt bytes cursor
  | next {content : Section} {cursor after : Cursor} :
      SectionAt bytes cursor → Section.read cursor = .ok content after → SectionAt bytes after

/-- If the sections from some place on are not read, then the module is not. -/
theorem SectionAt.decode_eq_error {bytes : Bytes} {cursor : Cursor} {fault : DecodeError}
    (reached : SectionAt bytes cursor)
    (failed : ∀ limit, cursor.remaining ≤ limit →
      ∃ left, Reader.untilEmptyWithin Section.read limit cursor = .error fault left) :
    decode bytes = .error fault := by
  -- Any limit that suffices: a section may take off several bytes, and the limit loses only one.
  induction reached with
  | @first preamble cursor read =>
      obtain ⟨left, failed⟩ := failed cursor.remaining le_rfl
      have sections : Reader.untilEmpty Section.read cursor = .error fault left := failed
      rw [decode, Reader.value, Module.read, Reader.bind_of_ok read, Reader.bind_of_error sections]
  | @next content cursor after _ read decoded =>
      apply decoded
      intro limit enough
      have fewer := Section.remaining_lt read
      cases limit with
      | zero => omega
      | succ limit =>
          obtain ⟨left, failed⟩ := failed limit (by omega)
          have more : cursor.rest ≠ [] := List.length_pos_iff.mp (Nat.zero_lt_of_lt fewer)
          rw [Reader.untilEmptyWithin_succ more, Reader.bind_of_ok read,
            Reader.bind_of_error failed]
          exact ⟨left, rfl⟩

/-- A module is not read if one of its sections is not. -/
theorem decode_of_section {bytes : Bytes} {cursor left : Cursor} {fault : DecodeError}
    (reached : SectionAt bytes cursor) (more : cursor.rest ≠ [])
    (failed : Section.read cursor = .error fault left) : decode bytes = .error fault := by
  apply reached.decode_eq_error
  intro limit enough
  cases limit with
  | zero => exact absurd (List.length_eq_zero_iff.mp (Nat.le_zero.mp enough)) more
  | succ limit =>
      rw [Reader.untilEmptyWithin_succ more, Reader.bind_of_error failed]
      exact ⟨left, rfl⟩

/-- **Sections that are too short.** A direct read from the payload of a section that goes past the
end of it makes the decoding fail. From where the read began some bytes were available in the
section and the others are lacking. The fault is blamed on the section only if more are lacking than
were available, and then the available ones are left out of what the section is said to take up. So
the end of the read is told exactly if nothing was available. -/
theorem decode_of_readPast {bytes : Bytes} {cursor payload : Cursor} {kind : SectionKind}
    {size : UInt32} {read : DirectRead} {lacking : Nat} (reached : SectionAt bytes cursor)
    (declared : LocatedSection.header cursor = .ok (kind, size) payload)
    (inside : size.toNat ≤ payload.remaining)
    (made : read ∈ kind.payloadScript.reads (payload.window size.toNat))
    (past : read.stop = payload.offset + size.toNat + lacking) (lacks : 0 < lacking) :
    ∃ available, read.offset + available = payload.offset + size.toNat ∧
      (lacking ≤ available → decode bytes = .error (.truncated read.offset lacking)) ∧
      (available < lacking → decode bytes =
        .error (.sizeMismatch kind.name size.toNat (size.toNat + lacking - available))) ∧
      (decode bytes = .error (.sizeMismatch kind.name size.toNat (size.toNat + lacking)) ↔
        available = 0) := by
  have stop := Cursor.stop_window inside
  have reports := kind.payloadScript.reports
  have begun := reports.begins read made
  obtain ⟨left, failed⟩ := reports.fails read made (by omega)
  rw [stop, past, Nat.add_sub_cancel_left] at failed
  obtain ⟨_, blamed⟩ := Section.read_of_payload declared inside failed
  have decoded := decode_of_section reached (LocatedSection.rest_ne_nil_of_header declared) blamed
  rw [stop] at begun
  -- The fault tells where the read began and only how much is lacking.
  obtain ⟨available, there⟩ := Nat.exists_eq_add_of_le begun
  rw [DecodeError.pastRegion_truncated there] at decoded
  refine ⟨available, there.symm, ?_, ?_, ?_⟩
  · intro few
    rw [decoded, if_neg (Nat.not_lt.mpr few)]
  · intro many
    rw [decoded, if_pos many]
  · constructor
    · intro told
      rw [decoded] at told
      split at told
      · injection told with told
        injection told with _ _ consumed
        omega
      · cases told
    · rintro rfl
      rw [decoded, if_pos lacks, Nat.sub_zero]

/-- A custom section of one byte, which is the length of a name of four. -/
def namelessFile : Bytes :=
  [0x00, 0x61, 0x73, 0x6d, 0x01, 0x00, 0x00, 0x00, 0x00, 0x01, 0x04]

/-- A custom section whose name is longer than the section, so that a read goes past its end. -/
theorem decode_namelessFile :
    SectionAt namelessFile ⟨8, [0x00, 0x01, 0x04]⟩ ∧
      (⟨11, 4⟩ : DirectRead) ∈ SectionKind.custom.payloadScript.reads ⟨10, [0x04]⟩ ∧
      decode namelessFile = .error (.sizeMismatch "custom" 1 5) := by
  have begins : SectionAt namelessFile ⟨8, [0x00, 0x01, 0x04]⟩ := .first rfl
  have declared : LocatedSection.header ⟨8, [0x00, 0x01, 0x04]⟩ =
      .ok (.custom, 1) ⟨10, [0x04]⟩ := rfl
  have made : (⟨11, 4⟩ : DirectRead) ∈ SectionKind.custom.payloadScript.reads ⟨10, [0x04]⟩ := by
    decide +kernel
  have past : (⟨11, 4⟩ : DirectRead).stop = 10 + (1 : UInt32).toNat + 4 := rfl
  obtain ⟨available, there, _, _, told⟩ :=
    decode_of_readPast begins declared (by decide) made past (by decide)
  have nothing : available = 0 := by
    change 11 + available = 11 at there
    omega
  exact ⟨begins, made, told.mpr nothing⟩

/-- A custom section that lacks the last byte of its name, and another section behind it. -/
def cutNameFile : Bytes :=
  [0x00, 0x61, 0x73, 0x6d, 0x01, 0x00, 0x00, 0x00, 0x00, 0x04, 0x04, 0x61, 0x62, 0x63, 0x08, 0x01,
    0x00]

/-- The input goes on behind the section and is still said to be truncated. -/
theorem decode_cutNameFile :
    SectionAt cutNameFile ⟨8, cutNameFile.drop 8⟩ ∧
      LocatedSection.header ⟨8, cutNameFile.drop 8⟩ = .ok (.custom, 4) ⟨10, cutNameFile.drop 10⟩ ∧
      (⟨11, 4⟩ : DirectRead) ∈
        SectionKind.custom.payloadScript.reads ⟨10, (cutNameFile.drop 10).take 4⟩ ∧
      10 + 4 < (⟨11, 4⟩ : DirectRead).stop ∧
      decode cutNameFile = .error (.truncated 11 1) ∧
      decode cutNameFile ≠ .error (.sizeMismatch "custom" 4 5) := by
  refine ⟨.first rfl, rfl, ?_, ?_, ?_, ?_⟩
  · decide +kernel
  · decide
  · decide +kernel
  · decide +kernel

end Module

end WasmGas

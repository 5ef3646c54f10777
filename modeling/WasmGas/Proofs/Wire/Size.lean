import WasmGas.Proofs.Wire.Sections

/-! # No more in a module than in its file

Whatever a list of the decoder holds takes up bytes of its own: an entry at least one, and a nested
list at least as many as it has entries. So the nodes of a module that was decoded, counted over all
its lists, are never more than the bytes of its file (`Module.nodes_le_of_decode`). The same account
holds of lists that are never finished. A count is only a promise: the entries that a list finds
before it ends, in whatever way it ends, are no more than the bytes that were left behind the count
(`Reader.ListEntry.exists_entries`).
-/

namespace WasmGas

open Reader Leb128

/-! ## Nodes -/

/-- An instruction and the labels of its branch table. -/
def Instruction.nodes (instruction : Instruction) : Nat :=
  match instruction.immediate with
  | some (.branchTable targets _) => targets.length + 2
  | _ => 1

/-- A signature and its value types. -/
def Signature.nodes (signature : Signature) : Nat :=
  2 + signature.params.length + signature.returns.length

def GlobalEntry.nodes (entry : GlobalEntry) : Nat := 1 + entry.init.nodes

def ElementEntry.nodes (entry : ElementEntry) : Nat :=
  1 + entry.offset.nodes + entry.functions.length

def FunctionBody.nodes (body : FunctionBody) : Nat :=
  1 + body.locals.length + (body.code.map Instruction.nodes).sum

def DataSegment.nodes (segment : DataSegment) : Nat :=
  1 + segment.offset.nodes + segment.bytes.length

def LocalNames.nodes (group : LocalNames) : Nat := 1 + group.names.length

def NameSubsection.nodes : NameSubsection → Nat
  | moduleName _ => 1
  | functionNames names => 1 + names.length
  | localNames groups => 1 + (groups.map LocalNames.nodes).sum
  | unknown _ payload => 1 + payload.length

def CustomPayload.nodes : CustomPayload → Nat
  | raw bytes => bytes.length
  | names subsections => (subsections.map NameSubsection.nodes).sum

/-- A section, its entries and all that is listed in them. Bytes count where they are kept as they
are; the bytes of a text do not. -/
def Section.nodes : Section → Nat
  | custom _ payload => 1 + payload.nodes
  | types entries => 1 + (entries.map Signature.nodes).sum
  | imports entries => 1 + entries.length
  | functions typeIndices => 1 + typeIndices.length
  | tables entries => 1 + entries.length
  | memories entries => 1 + entries.length
  | globals entries => 1 + (entries.map GlobalEntry.nodes).sum
  | exports entries => 1 + entries.length
  | start _ => 1
  | elements entries => 1 + (entries.map ElementEntry.nodes).sum
  | code bodies => 1 + (bodies.map FunctionBody.nodes).sum
  | data segments => 1 + (segments.map DataSegment.nodes).sum
  | dataCount _ => 1

def Module.nodes (m : Module) : Nat := (m.sections.map Section.nodes).sum

/-! ## What is written is no less -/

/-- Whatever is written takes up some number of bytes or more. -/
def Writing.AtLeast (size : Nat) (writing : Writing) : Prop :=
  ∀ ⦃bytes⦄, writing = .ok bytes → size ≤ bytes.length

namespace Writing

variable {α : Type}

theorem AtLeast.mono {size less : Nat} {writing : Writing} (atLeast : AtLeast size writing)
    (fewer : less ≤ size) : AtLeast less writing :=
  fun _ written => fewer.trans (atLeast written)

theorem atLeast_pure (bytes : Bytes) : AtLeast bytes.length (pure bytes) := by
  intro _ written
  cases written
  exact le_rfl

/-- A number takes up at least one group. -/
theorem length_pos_ofNat (n : Nat) : 1 ≤ (ofNat n).length :=
  List.length_pos_iff.mpr (groups_ofNat n).ne_nil

/-- A list takes up what its entries take up. -/
theorem concat_atLeast {nodes : α → Nat} {write : α → Writing} {entries : List α}
    (each : ∀ a, AtLeast (nodes a) (write a)) :
    AtLeast (entries.map nodes).sum (concat write entries) := by
  intro bytes written
  induction entries generalizing bytes with
  | nil => exact Nat.zero_le _
  | cons head tail atLeast =>
      obtain ⟨first, others, one, rest, rfl⟩ := concat_cons_eq_ok.mp written
      have front := each head one
      have back := atLeast rest
      rw [List.map_cons, List.sum_cons, List.length_append]
      omega

/-- The count in front takes up a byte at least. -/
theorem counted_atLeast (what : String) {nodes : α → Nat} {write : α → Writing} {entries : List α}
    (each : ∀ a, AtLeast (nodes a) (write a)) :
    AtLeast ((entries.map nodes).sum + 1) (counted what write entries) := by
  intro bytes written
  obtain ⟨content, _, listed, rfl⟩ := counted_eq_ok.mp written
  have entriesLong := concat_atLeast each listed
  have countLong := length_pos_ofNat entries.length
  rw [List.length_append]
  omega

/-- Entries that hold nothing further. -/
theorem counted_atLeast_length (what : String) {write : α → Writing} {entries : List α}
    (each : ∀ a, AtLeast 1 (write a)) :
    AtLeast (entries.length + 1) (counted what write entries) := by
  have listed : AtLeast ((entries.map fun _ => 1).sum + 1) (counted what write entries) :=
    counted_atLeast what each
  rwa [List.map_const', List.sum_replicate_nat, Nat.mul_one] at listed

theorem sized_atLeast (what : String) (content : Bytes) :
    AtLeast (content.length + 1) (sized what content) := by
  intro bytes written
  obtain ⟨_, rfl⟩ := sized_eq_ok.mp written
  have sizeLong := length_pos_ofNat content.length
  rw [List.length_append]
  omega

theorem name_atLeast (text : String) : AtLeast 1 (name text) :=
  (sized_atLeast "name" _).mono (Nat.le_add_left 1 _)

end Writing

open Writing

theorem uint32_atLeast (n : UInt32) : AtLeast 1 (pure (uint32 n)) :=
  (atLeast_pure _).mono (length_pos_ofNat n.toNat)

/-- An instruction takes up its opcode, and a branch table at least one byte for each label. -/
theorem Instruction.write_atLeast (instruction : Instruction) :
    AtLeast instruction.nodes instruction.write := by
  intro bytes written
  obtain ⟨operation, tail, _, further, rfl⟩ := Instruction.write_eq_ok.mp written
  rw [Instruction.nodes, List.length_cons]
  unfold Instruction.writeImmediate at further
  split
  · rename_i targets default held
    simp only [held] at further
    by_cases fits : operation.shape? = some (Immediate.branchTable targets default).shape
    · rw [if_pos fits] at further
      obtain ⟨labels, listed, put⟩ := Except.bind_eq_ok.mp further
      cases put
      have targetsLong := counted_atLeast_length "br_table" uint32_atLeast listed
      have defaultLong := length_pos_ofNat default.toNat
      rw [List.length_append, uint32]
      omega
    · rw [if_neg fits] at further
      cases further
  · exact Nat.le_add_left 1 _

/-- An initializer takes up its instruction and the terminator behind it. -/
theorem initializer_atLeast (instruction : Instruction) :
    AtLeast (instruction.nodes + 1) (Writing.initializer instruction) := by
  intro bytes written
  obtain ⟨content, one, put⟩ := Except.bind_eq_ok.mp written
  cases put
  rw [List.length_append, List.length_singleton]
  exact Nat.add_le_add_right (instruction.write_atLeast one) 1

/-! ### Entries -/

theorem valueType_atLeast (type : ValueType) : AtLeast 1 (pure [type.toByte]) :=
  atLeast_pure [type.toByte]

theorem Signature.write_atLeast (signature : Signature) :
    AtLeast signature.nodes signature.write := by
  intro bytes written
  obtain ⟨params, listed, rest⟩ := Except.bind_eq_ok.mp written
  obtain ⟨returns, further, put⟩ := Except.bind_eq_ok.mp rest
  cases put
  have paramsLong := counted_atLeast_length "type" valueType_atLeast listed
  have returnsLong := counted_atLeast_length "type" valueType_atLeast further
  rw [Signature.nodes, List.cons_append, List.length_cons, List.length_append]
  omega

theorem Limits.length_write_pos (limits : Limits) : 1 ≤ limits.write.length := by
  obtain ⟨initial, maximum⟩ := limits
  have initialLong := length_pos_ofNat initial.toNat
  cases maximum <;> simp only [Limits.write, uint32, List.length_append] <;> omega

theorem TableType.length_write_pos (type : TableType) : 1 ≤ type.write.length := by
  rw [TableType.write, List.length_cons]
  exact Nat.le_add_left 1 _

theorem ImportEntry.write_atLeast (entry : ImportEntry) : AtLeast 1 entry.write := by
  intro bytes written
  obtain ⟨module, named, rest⟩ := Except.bind_eq_ok.mp written
  obtain ⟨field, _, put⟩ := Except.bind_eq_ok.mp rest
  cases put
  have long := name_atLeast _ named
  rw [List.append_assoc, List.length_append]
  omega

theorem GlobalEntry.write_atLeast (entry : GlobalEntry) : AtLeast entry.nodes entry.write := by
  intro bytes written
  obtain ⟨init, one, put⟩ := Except.bind_eq_ok.mp written
  cases put
  have initLong := initializer_atLeast _ one
  rw [GlobalEntry.nodes, List.length_append]
  omega

theorem ExportEntry.write_atLeast (entry : ExportEntry) : AtLeast 1 entry.write := by
  intro bytes written
  obtain ⟨field, named, put⟩ := Except.bind_eq_ok.mp written
  cases put
  have long := name_atLeast _ named
  rw [List.length_append]
  omega

theorem ElementEntry.write_atLeast (entry : ElementEntry) : AtLeast entry.nodes entry.write := by
  intro bytes written
  obtain ⟨offset, one, rest⟩ := Except.bind_eq_ok.mp written
  obtain ⟨functions, listed, put⟩ := Except.bind_eq_ok.mp rest
  cases put
  have offsetLong := initializer_atLeast _ one
  have functionsLong := counted_atLeast_length "element" uint32_atLeast listed
  rw [ElementEntry.nodes, List.length_append, List.length_append]
  omega

theorem LocalGroup.length_write_pos (group : LocalGroup) : 1 ≤ group.write.length := by
  rw [LocalGroup.write, List.length_append, List.length_singleton]
  exact Nat.le_add_left 1 _

/-- A body takes up at least what its locals and its instructions do. -/
theorem FunctionBody.write_atLeast (body : FunctionBody) : AtLeast body.nodes body.write := by
  intro bytes written
  obtain ⟨locals, listed, rest⟩ := Except.bind_eq_ok.mp written
  obtain ⟨code, further, put⟩ := Except.bind_eq_ok.mp rest
  have localsLong := counted_atLeast_length "locals"
    (fun group => (atLeast_pure _).mono (LocalGroup.length_write_pos group)) listed
  have codeLong := concat_atLeast Instruction.write_atLeast further
  have sizedLong := sized_atLeast "function body" _ put
  rw [List.length_append] at sizedLong
  rw [FunctionBody.nodes]
  omega

theorem DataSegment.write_atLeast (segment : DataSegment) :
    AtLeast segment.nodes segment.write := by
  intro bytes written
  obtain ⟨offset, one, rest⟩ := Except.bind_eq_ok.mp written
  obtain ⟨content, sized, put⟩ := Except.bind_eq_ok.mp rest
  cases put
  have offsetLong := initializer_atLeast _ one
  have contentLong := sized_atLeast "data segment" _ sized
  rw [DataSegment.nodes, List.length_append, List.length_append]
  omega

/-! ### Debug names -/

theorem NameEntry.write_atLeast (entry : NameEntry) : AtLeast 1 entry.write := by
  intro bytes written
  obtain ⟨name, named, put⟩ := Except.bind_eq_ok.mp written
  cases put
  have nameLong := name_atLeast _ named
  rw [List.length_append]
  omega

theorem LocalNames.write_atLeast (group : LocalNames) : AtLeast group.nodes group.write := by
  intro bytes written
  obtain ⟨names, listed, put⟩ := Except.bind_eq_ok.mp written
  cases put
  have namesLong := counted_atLeast_length "name map" NameEntry.write_atLeast listed
  rw [LocalNames.nodes, List.length_append]
  omega

theorem NameSubsection.write_atLeast (subsection : NameSubsection) :
    AtLeast subsection.nodes subsection.write := by
  intro bytes written
  obtain ⟨payload, one, rest⟩ := Except.bind_eq_ok.mp written
  obtain ⟨content, sized, put⟩ := Except.bind_eq_ok.mp rest
  cases put
  have contentLong := sized_atLeast "name subsection" _ sized
  rw [List.length_cons]
  cases subsection with
  | moduleName name => exact Nat.le_add_left 1 _
  | functionNames names =>
      have namesLong := counted_atLeast_length "name map" NameEntry.write_atLeast one
      rw [NameSubsection.nodes]
      omega
  | localNames groups =>
      have groupsLong := counted_atLeast "local names" LocalNames.write_atLeast one
      rw [NameSubsection.nodes]
      omega
  | unknown kind bytes =>
      cases one
      rw [NameSubsection.nodes]
      omega

/-! ### Sections and modules -/

theorem CustomPayload.write_atLeast (payload : CustomPayload) :
    AtLeast payload.nodes payload.write := by
  cases payload with
  | raw bytes => exact atLeast_pure bytes
  | names subsections => exact concat_atLeast NameSubsection.write_atLeast

/-- The id and the size of a section count for the section itself. -/
theorem Section.writePayload_atLeast (content : Section) :
    AtLeast (content.nodes - 1) content.writePayload := by
  cases content with
  | custom name payload =>
      intro bytes written
      obtain ⟨head, _, rest⟩ := Except.bind_eq_ok.mp written
      obtain ⟨tail, further, put⟩ := Except.bind_eq_ok.mp rest
      cases put
      have long := payload.write_atLeast further
      rw [Section.nodes, List.length_append]
      omega
  | types entries =>
      exact (counted_atLeast "type" Signature.write_atLeast).mono (by rw [nodes]; omega)
  | imports entries =>
      exact (counted_atLeast_length "import" ImportEntry.write_atLeast).mono (by rw [nodes]; omega)
  | functions typeIndices =>
      exact (counted_atLeast_length "function" uint32_atLeast).mono (by rw [nodes]; omega)
  | tables entries =>
      refine (counted_atLeast_length "table" fun type => ?_).mono (by rw [nodes]; omega)
      exact (atLeast_pure _).mono type.length_write_pos
  | memories entries =>
      refine (counted_atLeast_length "memory" fun limits => ?_).mono (by rw [nodes]; omega)
      exact (atLeast_pure _).mono limits.length_write_pos
  | globals entries =>
      exact (counted_atLeast "global" GlobalEntry.write_atLeast).mono (by rw [nodes]; omega)
  | exports entries =>
      exact (counted_atLeast_length "export" ExportEntry.write_atLeast).mono (by rw [nodes]; omega)
  | start index => exact fun _ _ => Nat.zero_le _
  | elements entries =>
      exact (counted_atLeast "element" ElementEntry.write_atLeast).mono (by rw [nodes]; omega)
  | code bodies =>
      exact (counted_atLeast "code" FunctionBody.write_atLeast).mono (by rw [nodes]; omega)
  | data segments =>
      exact (counted_atLeast "data" DataSegment.write_atLeast).mono (by rw [nodes]; omega)
  | dataCount count => exact fun _ _ => Nat.zero_le _

/-- A section takes up at least one byte for each node of it. -/
theorem Section.write_atLeast (content : Section) : AtLeast content.nodes content.write := by
  intro bytes written
  obtain ⟨payload, one, rest⟩ := Except.bind_eq_ok.mp written
  obtain ⟨region, sized, put⟩ := Except.bind_eq_ok.mp rest
  cases put
  have payloadLong := content.writePayload_atLeast one
  have regionLong := sized_atLeast _ _ sized
  rw [List.length_cons]
  omega

/-- A file has at least one byte for each node of its module. -/
theorem Module.encode_atLeast (m : Module) : AtLeast m.nodes m.encode := by
  intro bytes written
  obtain ⟨sections, listed, put⟩ := Except.bind_eq_ok.mp written
  cases put
  have long := concat_atLeast Section.write_atLeast listed
  rw [Module.nodes, List.length_append]
  omega

/-! ## Lists that may end early -/

namespace Reader

variable {α : Type} {entry : Reader α}

/-- Entries that are read one after another, from one cursor up to another. -/
inductive Entries (entry : Reader α) : Cursor → List α → Cursor → Prop where
  | nil (cursor : Cursor) : Entries entry cursor [] cursor
  | cons {cursor between after : Cursor} {head : α} {tail : List α}
      (one : entry cursor = .ok head between) (others : Entries entry between tail after) :
      Entries entry cursor (head :: tail) after

/-- There are no more entries than bytes, for each takes up some of them. -/
theorem Entries.length_add_le (shrinks : Shrinks entry) {cursor after : Cursor}
    {found : List α} (entries : Entries entry cursor found after) :
    found.length + after.remaining ≤ cursor.remaining := by
  induction entries with
  | nil cursor => rw [List.length_nil, Nat.zero_add]
  | cons one others fewer =>
      have taken := shrinks one
      rw [List.length_cons]
      omega

/-- What the reading of a list with a count comes to, if some entries were found up to a cursor: all
of them were, or the next one cannot be read. -/
def Ends (entry : Reader α) (count : Nat) (found : List α) (place : Cursor)
    (outcome : EStateM.Result DecodeError Cursor (List α)) : Prop :=
  outcome = .ok found place ∧ found.length = count ∨
    found.length < count ∧ ∃ fault left, entry place = .error fault left ∧
      outcome = .error fault left

/-- A list finds some entries and then ends, whether or not those are all that were promised. -/
theorem exists_entries_of_repeated (entry : Reader α) (count : Nat) (cursor : Cursor) :
    ∃ found place, Entries entry cursor found place ∧
      Ends entry count found place (repeated entry count cursor) := by
  induction count generalizing cursor with
  | zero => exact ⟨[], cursor, .nil cursor, Or.inl ⟨rfl, rfl⟩⟩
  | succ count ends =>
      cases one : entry cursor with
      | error fault left =>
          refine ⟨[], cursor, .nil cursor, Or.inr ⟨Nat.succ_pos count, fault, left, one, ?_⟩⟩
          exact bind_of_error one
      | ok head between =>
          obtain ⟨tail, place, entries, outcome⟩ := ends between
          refine ⟨head :: tail, place, .cons one entries, ?_⟩
          rw [repeated, bind_of_ok one]
          rcases outcome with ⟨read, counted⟩ | ⟨fewer, fault, left, failed, read⟩
          · left
            rw [bind_of_ok read, List.length_cons, counted]
            exact ⟨rfl, rfl⟩
          · right
            rw [bind_of_error read, List.length_cons]
            exact ⟨Nat.succ_lt_succ fewer, fault, left, failed, rfl⟩

/-- The readers of what stands in a list behind its count. -/
inductive ListEntry : {α : Type} → Reader α → Prop where
  | valueType : ListEntry valueType
  | index : ListEntry readUInt32
  | signature : ListEntry Signature.read
  | importEntry : ListEntry ImportEntry.read
  | tableType : ListEntry TableType.read
  | limits : ListEntry Limits.read
  | globalEntry : ListEntry GlobalEntry.read
  | exportEntry : ListEntry ExportEntry.read
  | elementEntry : ListEntry ElementEntry.read
  | localGroup : ListEntry LocalGroup.read
  | functionBody : ListEntry FunctionBody.read
  | dataSegment : ListEntry DataSegment.read
  | nameEntry : ListEntry NameEntry.read
  | localNames : ListEntry LocalNames.read

/-- No less is read than what is written. -/
theorem Script.Rewrites.shrinks {script : Script entry} {form : α → Bytes → Prop}
    (rewrites : script.Rewrites form) (long : ∀ ⦃a written⦄, form a written → 1 ≤ written.length) :
    Shrinks entry := by
  intro cursor after a read
  obtain ⟨used, written, advances, formed, rewriting⟩ := rewrites read
  have some := long formed
  have taken := rewriting.length_le
  rw [Cursor.remaining, Cursor.remaining, advances.rest, List.length_append]
  omega

/-- Nothing is listed that takes up no bytes. -/
theorem ListEntry.shrinks (listed : ListEntry entry) : Shrinks entry := by
  cases listed with
  | valueType => exact rewrites_valueType.shrinks fun _ _ same => same ▸ le_rfl
  | index => exact Script.rewrites_uint32.shrinks fun n _ same => same ▸ length_pos_ofNat n.toNat
  | signature =>
      refine Signature.rewrites.shrinks fun signature _ written => ?_
      exact le_trans (by rw [Signature.nodes]; omega) (signature.write_atLeast written)
  | importEntry =>
      exact ImportEntry.rewrites.shrinks fun entry _ written => entry.write_atLeast written
  | tableType => exact TableType.rewrites.shrinks fun type _ same => same ▸ type.length_write_pos
  | limits => exact Limits.rewrites.shrinks fun limits _ same => same ▸ limits.length_write_pos
  | globalEntry =>
      refine GlobalEntry.rewrites.shrinks fun entry _ written => ?_
      exact le_trans (by rw [GlobalEntry.nodes]; omega) (entry.write_atLeast written)
  | exportEntry =>
      exact ExportEntry.rewrites.shrinks fun entry _ written => entry.write_atLeast written
  | elementEntry =>
      refine ElementEntry.rewrites.shrinks fun entry _ written => ?_
      exact le_trans (by rw [ElementEntry.nodes]; omega) (entry.write_atLeast written)
  | localGroup =>
      exact LocalGroup.rewrites.shrinks fun group _ same => same ▸ group.length_write_pos
  | functionBody =>
      refine FunctionBody.rewrites.shrinks fun body _ written => ?_
      exact le_trans (by rw [FunctionBody.nodes]; omega) (body.write_atLeast written)
  | dataSegment =>
      refine DataSegment.rewrites.shrinks fun segment _ written => ?_
      exact le_trans (by rw [DataSegment.nodes]; omega) (segment.write_atLeast written)
  | nameEntry =>
      exact NameEntry.rewrites.shrinks fun entry _ written => entry.write_atLeast written
  | localNames =>
      refine LocalNames.rewrites.shrinks fun group _ written => ?_
      exact le_trans (by rw [LocalNames.nodes]; omega) (group.write_atLeast written)

/-- However many entries a count promises, there are no more of them than bytes behind it. -/
theorem ListEntry.exists_entries (listed : ListEntry entry) {cursor start : Cursor}
    {count : UInt32} (announced : readUInt32 cursor = .ok count start) :
    ∃ found place, Entries entry start found place ∧
      Ends entry count.toNat found place (counted entry cursor) ∧
      found.length + place.remaining ≤ start.remaining := by
  obtain ⟨found, place, entries, ends⟩ := exists_entries_of_repeated entry count.toNat start
  rw [counted, bind_of_ok announced]
  exact ⟨found, place, entries, ends, entries.length_add_le listed.shrinks⟩

end Reader

namespace Module

/-- A module that was decoded has no more nodes than its file has bytes. -/
theorem nodes_le_of_decode {bytes : Bytes} {m : Module} (decoded : decode bytes = .ok m) :
    m.nodes ≤ bytes.length := by
  obtain ⟨after, read, ends⟩ := read_of_decode decoded
  obtain ⟨used, written, advances, ⟨encoded, _⟩, rewriting⟩ := rewrites read
  have all : bytes = used := by
    rw [← List.append_nil used, ← ends]
    exact advances.rest
  calc m.nodes ≤ written.length := m.encode_atLeast encoded
    _ ≤ used.length := rewriting.length_le
    _ = bytes.length := congrArg List.length all.symm

/-- **Decoding is bounded by the input.** A module that was decoded has no more nodes than its file
has bytes. A list with a count, wherever one is read and however large the count is, finds no more
entries than there are bytes behind the count before it succeeds or fails. -/
theorem decode_bounded :
    (∀ ⦃bytes : Bytes⦄ ⦃m : Module⦄, decode bytes = .ok m → m.nodes ≤ bytes.length) ∧
      ∀ ⦃α : Type⦄ ⦃entry : Reader α⦄, ListEntry entry →
        ∀ ⦃cursor start : Cursor⦄ ⦃count : UInt32⦄, readUInt32 cursor = .ok count start →
          ∃ found place, Entries entry start found place ∧
            Ends entry count.toNat found place (counted entry cursor) ∧
            found.length ≤ start.remaining := by
  refine ⟨fun bytes m decoded => nodes_le_of_decode decoded, ?_⟩
  intro α entry listed cursor start count announced
  obtain ⟨found, place, entries, ends, bounded⟩ := listed.exists_entries announced
  exact ⟨found, place, entries, ends, (Nat.le_add_right _ _).trans bounded⟩

/-- The targets of a branch table, of which there are two and are said to be as many as can be. -/
def forgedTargets : Cursor := ⟨9, [0xff, 0xff, 0xff, 0xff, 0x0f, 0x01, 0x02]⟩

/-- A branch table that promises four thousand million labels and has two bytes for them. -/
theorem decode_bounded_forged :
    decode paddedFile = .ok constant ∧ constant.nodes ≤ paddedFile.length ∧
      readUInt32 forgedTargets = .ok 0xffffffff ⟨14, [0x01, 0x02]⟩ ∧
      ∃ found place, Entries readUInt32 ⟨14, [0x01, 0x02]⟩ found place ∧
        Ends readUInt32 0xffffffff found place (counted readUInt32 forgedTargets) ∧
        found.length ≤ 2 := by
  have decoded : decode paddedFile = .ok constant := by decide +kernel
  have announced : readUInt32 forgedTargets = .ok 0xffffffff ⟨14, [0x01, 0x02]⟩ := rfl
  exact ⟨decoded, decode_bounded.1 decoded, announced, decode_bounded.2 .index announced⟩

end Module

end WasmGas

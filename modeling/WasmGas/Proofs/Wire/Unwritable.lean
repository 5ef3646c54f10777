import WasmGas.Proofs.Wire.WellFormed

/-! # What cannot be written

If no length in a module is too great, then only its instructions can keep it from being written:
those without a row in the opcode table, and those whose immediate is not what their row asks for
(`Instruction.fault?`). The first of them in the order of writing is blamed, wherever it
stands (`Module.encode_blames`). Each writer is said to write a list of instructions
(`Writes`), and the lists are put one after the other as the writers are.
-/

namespace WasmGas

/-! ## Faults of instructions -/

/-- Why an instruction cannot be written, whatever the lengths are. -/
def Instruction.fault? (instruction : Instruction) : Option EncodeError :=
  match instruction.operation? with
  | none => some (.unknownInstruction instruction.mnemonic)
  | some operation =>
    if operation.shape? = instruction.immediate.map Immediate.shape then none
    else some (.malformedImmediate instruction.mnemonic operation.shape?)

/-- Nothing is wrong with an instruction just where it has a row in the table. -/
theorem Instruction.fault?_eq_none_iff {instruction : Instruction} :
    instruction.fault? = none ↔ instruction.Tabled := by
  rw [fault?, Tabled]
  cases instruction.operation? with
  | none => simp only [Option.map_none, reduceCtorEq]
  | some operation => simp only [ite_eq_left_iff, reduceCtorEq, imp_false, Decidable.not_not,
      Option.map_some, Option.some_inj]

/-- A step that writes some instructions fails for the first of them that cannot be written, and
succeeds if there is none. -/
def Writes {α : Type} (instructions : List Instruction) (step : Except EncodeError α) : Prop :=
  match instructions.findSome? Instruction.fault? with
  | none => ∃ a, step = .ok a
  | some fault => step = .error fault

namespace Writes

variable {α β : Type} {before after : List Instruction} {first : Except EncodeError α}
  {next : α → Except EncodeError β}

theorem pure (a : α) : Writes [] (Pure.pure a : Except EncodeError α) := ⟨a, rfl⟩

/-- A sequence blames the first faulty instruction of its first part, and then of its second. -/
theorem bind (one : Writes before first) (rest : ∀ a, first = .ok a → Writes after (next a)) :
    Writes (before ++ after) (first >>= next) := by
  unfold Writes at one ⊢
  rw [List.findSome?_append]
  cases faulty : before.findSome? Instruction.fault? with
  | some fault =>
      rw [faulty] at one
      rw [Option.some_or, one]
      rfl
  | none =>
      rw [faulty] at one
      obtain ⟨a, done⟩ := one
      rw [Option.none_or, done]
      exact rest a done

theorem map (one : Writes before first) (f : α → β) :
    Writes before (first >>= fun a => Pure.pure (f a)) := by
  rw [← List.append_nil before]
  exact one.bind fun a _ => pure (f a)

/-- Writing fails just if some instruction cannot be written. -/
theorem fails_iff (one : Writes before first) :
    (∃ fault, first = .error fault) ↔ ∃ instruction ∈ before, ¬ instruction.Tabled := by
  unfold Writes at one
  cases found : before.findSome? Instruction.fault? with
  | none =>
      rw [found] at one
      obtain ⟨a, done⟩ := one
      refine iff_of_false ?_ ?_
      · rintro ⟨fault, failed⟩
        rw [done] at failed
        cases failed
      · rintro ⟨instruction, listed, untabled⟩
        have sound := List.findSome?_eq_none_iff.mp found instruction listed
        exact untabled (Instruction.fault?_eq_none_iff.mp sound)
  | some fault =>
      rw [found] at one
      obtain ⟨faulty, listed, blamed⟩ := List.exists_of_findSome?_eq_some found
      refine iff_of_true ⟨fault, one⟩ ⟨faulty, listed, fun tabled => ?_⟩
      rw [Instruction.fault?_eq_none_iff.mpr tabled] at blamed
      cases blamed

/-- The first instruction that cannot be written says why writing fails. -/
theorem blames {faulty : Instruction} {fault : EncodeError}
    (one : Writes (before ++ faulty :: after) first)
    (tabled : ∀ instruction ∈ before, instruction.Tabled) (blamed : faulty.fault? = some fault) :
    first = .error fault := by
  have sound : ∀ instruction ∈ before, instruction.fault? = none :=
    fun instruction listed => Instruction.fault?_eq_none_iff.mpr (tabled instruction listed)
  rw [Writes, List.findSome?_eq_some_iff.mpr ⟨before, faulty, after, rfl, blamed, sound⟩] at one
  exact one

end Writes

/-! ## Frames -/

/-- Whether lengths can be written. -/
def Short (lengths : List Nat) : Prop := ∀ n ∈ lengths, n < UInt32.size

instance (lengths : List Nat) : Decidable (Short lengths) :=
  inferInstanceAs (Decidable (∀ n ∈ lengths, n < UInt32.size))

theorem short_cons {n : Nat} {others : List Nat} :
    Short (n :: others) ↔ n < UInt32.size ∧ Short others :=
  List.forall_mem_cons

theorem short_singleton {n : Nat} : Short [n] ↔ n < UInt32.size :=
  List.forall_mem_singleton

theorem short_append {one other : List Nat} : Short (one ++ other) ↔ Short one ∧ Short other :=
  List.forall_mem_append

/-- The lengths of a counted list are its count and those of its entries. -/
theorem short_counted {α : Type} {lengths : α → List Nat} {entries : List α} :
    Short (entries.length :: entries.flatMap lengths) ↔
      entries.length < UInt32.size ∧ ∀ a ∈ entries, Short (lengths a) := by
  rw [Short, List.forall_mem_cons, List.forall_mem_flatMap]
  rfl

/-- The length of what is written, if that can be written. -/
def encodedLengths (writing : Writing) : List Nat :=
  match writing with
  | .ok bytes => [bytes.length]
  | .error _ => []

namespace Writing

variable {α : Type} {instructions : α → List Instruction} {entry : α → Writing}
  {entries : List α} {before : List Instruction} {content : Writing}

theorem length_writes (what : String) {n : Nat} (short : n < UInt32.size) :
    Writes [] (length what n) :=
  ⟨Leb128.ofNat n, if_pos short⟩

/-- A list blames the first faulty instruction of its entries in their order. -/
theorem concat_writes (each : ∀ a ∈ entries, Writes (instructions a) (entry a)) :
    Writes (entries.flatMap instructions) (concat entry entries) := by
  induction entries with
  | nil => exact .pure _
  | cons head tail rest =>
      obtain ⟨one, others⟩ := List.forall_mem_cons.mp each
      rw [List.flatMap_cons]
      exact one.bind fun _ _ => (rest others).map _

/-- A counted list blames the first faulty instruction of its entries. -/
theorem counted_writes (what : String) (few : entries.length < UInt32.size)
    (each : ∀ a ∈ entries, Writes (instructions a) (entry a)) :
    Writes (entries.flatMap instructions) (counted what entry entries) :=
  (length_writes what few).bind fun _ _ => (concat_writes each).map _

/-- Entries without instructions give nothing to blame. -/
theorem concat_writes_nil (each : ∀ a ∈ entries, Writes [] (entry a)) :
    Writes [] (concat entry entries) := by
  have whole := concat_writes each
  rwa [List.flatMap_eq_nil_iff.mpr fun _ _ => rfl] at whole

/-- A counted list without instructions is written. -/
theorem counted_writes_nil (what : String) (few : entries.length < UInt32.size)
    (each : ∀ a ∈ entries, Writes [] (entry a)) : Writes [] (counted what entry entries) :=
  (length_writes what few).bind fun _ _ => (concat_writes_nil each).map _

theorem sized_writes (what : String) {bytes : Bytes} (short : bytes.length < UInt32.size) :
    Writes [] (sized what bytes) :=
  (length_writes what short).map _

theorem name_writes {text : String} (short : text.utf8ByteSize < UInt32.size) :
    Writes [] (name text) :=
  sized_writes "name" short

/-- The size of a region matters only if its content can be written. -/
theorem region_writes (what : String) (one : Writes before content)
    (short : Short (encodedLengths content)) : Writes before (content >>= sized what) := by
  rw [← List.append_nil before]
  refine one.bind fun bytes done => sized_writes what ?_
  rw [done] at short
  exact short _ List.mem_cons_self

end Writing

/-! ## Instructions -/

/-- The count of labels, if there are any. -/
def Instruction.lengths (instruction : Instruction) : List Nat :=
  match instruction.immediate with
  | some (.branchTable targets _) => [targets.length]
  | _ => []

namespace Instruction

variable {instruction : Instruction}

/-- An immediate with short lengths is written. -/
theorem exists_immediate {immediate : Immediate} (held : instruction.immediate = some immediate)
    (short : Short instruction.lengths) : ∃ bytes, immediate.write = .ok bytes := by
  cases immediate with
  | branchTable targets default =>
      rw [lengths, held] at short
      have few : targets.length < UInt32.size := short _ List.mem_cons_self
      exact (Writing.counted_writes_nil "br_table" few fun _ _ => .pure _).map _
  | _ => exact ⟨_, rfl⟩

/-- An immediate is written just if it is of the shape that is asked for. -/
theorem writeImmediate_writes (short : Short instruction.lengths)
    (shape? : Option ImmediateShape) :
    if shape? = instruction.immediate.map Immediate.shape then
      ∃ bytes, instruction.writeImmediate shape? = .ok bytes
    else instruction.writeImmediate shape? =
      .error (.malformedImmediate instruction.mnemonic shape?) := by
  unfold writeImmediate
  cases held : instruction.immediate with
  | none =>
      by_cases bare : shape? = none
      · simp only [bare, Option.map_none, ↓reduceIte]
        exact ⟨[], rfl⟩
      · simp only [bare, Option.map_none, ↓reduceIte]
        rfl
  | some immediate =>
      by_cases fits : shape? = some immediate.shape
      · simp only [fits, Option.map_some, ↓reduceIte]
        exact exists_immediate held short
      · simp only [fits, Option.map_some, ↓reduceIte]
        rfl

/-- An instruction blames itself if it is faulty, and else it is written. -/
theorem writes (short : Short instruction.lengths) : Writes [instruction] instruction.write := by
  have written := writeImmediate_writes short
  rw [Writes, List.findSome?_singleton, fault?, write]
  cases instruction.operation? with
  | none => rfl
  | some operation =>
      by_cases fits : operation.shape? = instruction.immediate.map Immediate.shape
      · obtain ⟨bytes, done⟩ := (if_pos fits).mp (written operation.shape?)
        simp only [if_pos fits]
        exact ⟨operation.opcode :: bytes, by rw [done]; rfl⟩
      · have failed := (if_neg fits).mp (written operation.shape?)
        simp only [if_neg fits]
        rw [failed]
        rfl

/-- An initializer blames its instruction if that is faulty. -/
theorem initializer_writes (short : Short instruction.lengths) :
    Writes [instruction] (Writing.initializer instruction) :=
  (writes short).map _

end Instruction

/-! ## Entries -/

/-- The lengths that are written in a signature. -/
def Signature.lengths (signature : Signature) : List Nat :=
  [signature.params.length, signature.returns.length]

def ImportEntry.lengths (entry : ImportEntry) : List Nat :=
  [entry.module.utf8ByteSize, entry.field.utf8ByteSize]

def ExportEntry.lengths (entry : ExportEntry) : List Nat := [entry.field.utf8ByteSize]

def ElementEntry.lengths (entry : ElementEntry) : List Nat :=
  entry.offset.lengths ++ [entry.functions.length]

def DataSegment.lengths (segment : DataSegment) : List Nat :=
  segment.offset.lengths ++ [segment.bytes.length]

/-- What the size of a body counts. -/
def FunctionBody.writeContent (body : FunctionBody) : Writing := do
  let locals ← Writing.counted "locals" (fun group => return group.write) body.locals
  let code ← Writing.concat Instruction.write body.code
  return locals ++ code

/-- A body is its content with the size of that before it. -/
theorem FunctionBody.write_eq (body : FunctionBody) :
    body.write = body.writeContent >>= Writing.sized "function body" := by
  simp only [write, writeContent, bind_assoc, pure_bind]

def FunctionBody.lengths (body : FunctionBody) : List Nat :=
  body.locals.length :: body.code.flatMap Instruction.lengths ++ encodedLengths body.writeContent

def NameEntry.lengths (entry : NameEntry) : List Nat := [entry.name.utf8ByteSize]

def LocalNames.lengths (group : LocalNames) : List Nat :=
  group.names.length :: group.names.flatMap NameEntry.lengths

def NameSubsection.lengths (subsection : NameSubsection) : List Nat :=
  parts subsection ++ encodedLengths subsection.writePayload
where
  parts : NameSubsection → List Nat
    | moduleName name => [name.utf8ByteSize]
    | functionNames names => names.length :: names.flatMap NameEntry.lengths
    | localNames groups => groups.length :: groups.flatMap LocalNames.lengths
    | unknown _ _ => []

def CustomPayload.lengths : CustomPayload → List Nat
  | raw _ => []
  | names subsections => subsections.flatMap NameSubsection.lengths

theorem Signature.writes {signature : Signature} (short : Short signature.lengths) :
    Writes [] signature.write := by
  obtain ⟨params, others⟩ := short_cons.mp short
  have returns := short_singleton.mp others
  exact (Writing.counted_writes_nil "type" params fun _ _ => .pure _).bind fun _ _ =>
    (Writing.counted_writes_nil "type" returns fun _ _ => .pure _).map _

theorem ImportEntry.writes {entry : ImportEntry} (short : Short entry.lengths) :
    Writes [] entry.write := by
  obtain ⟨module, others⟩ := short_cons.mp short
  have field := short_singleton.mp others
  exact (Writing.name_writes module).bind fun _ _ => (Writing.name_writes field).map _

theorem ExportEntry.writes {entry : ExportEntry} (short : Short entry.lengths) :
    Writes [] entry.write :=
  (Writing.name_writes (short_singleton.mp short)).map _

theorem GlobalEntry.writes {entry : GlobalEntry} (short : Short entry.init.lengths) :
    Writes [entry.init] entry.write :=
  (Instruction.initializer_writes short).map _

theorem ElementEntry.writes {entry : ElementEntry} (short : Short entry.lengths) :
    Writes [entry.offset] entry.write := by
  obtain ⟨offset, functions⟩ := short_append.mp short
  have few := short_singleton.mp functions
  exact (Instruction.initializer_writes offset).bind fun _ _ =>
    (Writing.counted_writes_nil "element" few fun _ _ => .pure _).map _

theorem DataSegment.writes {segment : DataSegment} (short : Short segment.lengths) :
    Writes [segment.offset] segment.write := by
  obtain ⟨offset, bytes⟩ := short_append.mp short
  exact (Instruction.initializer_writes offset).bind fun _ _ =>
    (Writing.sized_writes "data segment" (short_singleton.mp bytes)).map _

/-- A body blames the first faulty instruction of its code. -/
theorem FunctionBody.writes {body : FunctionBody} (short : Short body.lengths) :
    Writes body.code body.write := by
  obtain ⟨parts, size⟩ := short_append.mp short
  obtain ⟨locals, labels⟩ := short_cons.mp parts
  have code : Writes (body.code.flatMap fun instruction => [instruction])
      (Writing.concat Instruction.write body.code) :=
    Writing.concat_writes fun instruction listed =>
      Instruction.writes (List.forall_mem_flatMap.mp labels instruction listed)
  rw [List.flatMap_singleton'] at code
  have content : Writes body.code body.writeContent :=
    (Writing.counted_writes_nil "locals" locals fun _ _ => .pure _).bind fun _ _ => code.map _
  rw [body.write_eq]
  exact Writing.region_writes "function body" content size

theorem NameEntry.writes {entry : NameEntry} (short : Short entry.lengths) :
    Writes [] entry.write :=
  (Writing.name_writes (short_singleton.mp short)).map _

theorem LocalNames.writes {group : LocalNames} (short : Short group.lengths) :
    Writes [] group.write := by
  obtain ⟨few, names⟩ := short_counted.mp short
  exact (Writing.counted_writes_nil "name map" few fun entry listed =>
    NameEntry.writes (names entry listed)).map _

theorem NameSubsection.writes {subsection : NameSubsection} (short : Short subsection.lengths) :
    Writes [] subsection.write := by
  obtain ⟨parts, size⟩ := short_append.mp short
  have payload : Writes [] subsection.writePayload := by
    cases subsection with
    | moduleName name => exact Writing.name_writes (short_singleton.mp parts)
    | functionNames names =>
        obtain ⟨few, names⟩ := short_counted.mp parts
        exact Writing.counted_writes_nil "name map" few fun entry listed =>
          NameEntry.writes (names entry listed)
    | localNames groups =>
        obtain ⟨few, groups⟩ := short_counted.mp parts
        exact Writing.counted_writes_nil "local names" few fun group listed =>
          LocalNames.writes (groups group listed)
    | unknown kind bytes => exact .pure bytes
  have whole : subsection.write = (subsection.writePayload >>= Writing.sized "name subsection") >>=
      fun content => Pure.pure (subsection.kind :: content) := by
    rw [bind_assoc]
    rfl
  rw [whole]
  exact (Writing.region_writes "name subsection" payload size).map _

theorem CustomPayload.writes {payload : CustomPayload} (short : Short payload.lengths) :
    Writes [] payload.write := by
  cases payload with
  | raw bytes => exact .pure bytes
  | names subsections =>
      exact Writing.concat_writes_nil fun subsection listed =>
        NameSubsection.writes (List.forall_mem_flatMap.mp short subsection listed)

/-! ## Sections -/

namespace Section

/-- The lengths that are written in the payload of a section. -/
def payloadLengths : Section → List Nat
  | custom name payload => name.utf8ByteSize :: payload.lengths
  | types entries => entries.length :: entries.flatMap Signature.lengths
  | imports entries => entries.length :: entries.flatMap ImportEntry.lengths
  | functions typeIndices => [typeIndices.length]
  | tables entries => [entries.length]
  | memories entries => [entries.length]
  | globals entries => entries.length :: entries.flatMap (·.init.lengths)
  | exports entries => entries.length :: entries.flatMap ExportEntry.lengths
  | start _ => []
  | elements entries => entries.length :: entries.flatMap ElementEntry.lengths
  | code bodies => bodies.length :: bodies.flatMap FunctionBody.lengths
  | data segments => segments.length :: segments.flatMap DataSegment.lengths
  | dataCount _ => []

/-- The lengths that are written in a section, its size included. -/
def lengths (content : Section) : List Nat :=
  content.payloadLengths ++ encodedLengths content.writePayload

/-- A payload blames the first faulty instruction in it. -/
theorem writePayload_writes {content : Section} (short : Short content.payloadLengths) :
    Writes content.instructions content.writePayload := by
  cases content with
  | custom name payload =>
      obtain ⟨name, payload⟩ := short_cons.mp short
      exact (Writing.name_writes name).bind fun _ _ => (CustomPayload.writes payload).map _
  | types entries =>
      obtain ⟨few, each⟩ := short_counted.mp short
      exact Writing.counted_writes_nil "type" few fun entry listed =>
        Signature.writes (each entry listed)
  | imports entries =>
      obtain ⟨few, each⟩ := short_counted.mp short
      exact Writing.counted_writes_nil "import" few fun entry listed =>
        ImportEntry.writes (each entry listed)
  | functions typeIndices =>
      exact Writing.counted_writes_nil "function" (short_singleton.mp short) fun _ _ => .pure _
  | tables entries =>
      exact Writing.counted_writes_nil "table" (short_singleton.mp short) fun _ _ => .pure _
  | memories entries =>
      exact Writing.counted_writes_nil "memory" (short_singleton.mp short) fun _ _ => .pure _
  | globals entries =>
      obtain ⟨few, each⟩ := short_counted.mp short
      rw [instructions, List.map_eq_flatMap]
      exact Writing.counted_writes "global" few fun entry listed =>
        GlobalEntry.writes (each entry listed)
  | exports entries =>
      obtain ⟨few, each⟩ := short_counted.mp short
      exact Writing.counted_writes_nil "export" few fun entry listed =>
        ExportEntry.writes (each entry listed)
  | start index => exact .pure _
  | elements entries =>
      obtain ⟨few, each⟩ := short_counted.mp short
      rw [instructions, List.map_eq_flatMap]
      exact Writing.counted_writes "element" few fun entry listed =>
        ElementEntry.writes (each entry listed)
  | code bodies =>
      obtain ⟨few, each⟩ := short_counted.mp short
      exact Writing.counted_writes "code" few fun body listed =>
        FunctionBody.writes (each body listed)
  | data segments =>
      obtain ⟨few, each⟩ := short_counted.mp short
      rw [instructions, List.map_eq_flatMap]
      exact Writing.counted_writes "data" few fun segment listed =>
        DataSegment.writes (each segment listed)
  | dataCount count => exact .pure _

/-- A section blames the first faulty instruction in it. -/
theorem writes {content : Section} (short : Short content.lengths) :
    Writes content.instructions content.write := by
  obtain ⟨parts, size⟩ := short_append.mp short
  have whole : content.write = (content.writePayload >>= Writing.sized content.kind.name) >>=
      fun sized => Pure.pure (content.kind.toByte :: sized) := by
    rw [bind_assoc]
    rfl
  rw [whole]
  exact (Writing.region_writes content.kind.name (writePayload_writes parts) size).map _

end Section

/-! ## Modules -/

namespace Module

variable {m : Module}

/-- The instructions of a module, in the order in which they are written. -/
def instructions (m : Module) : List Instruction := m.sections.flatMap Section.instructions

/-- The lengths that are written in a module: counts, and the sizes of names, of blobs, and of what
can be written of bodies, subsections and sections. -/
def lengths (m : Module) : List Nat := m.sections.flatMap Section.lengths

/-- A module blames the first faulty instruction in the order of its file. -/
theorem writes_encode (short : Short m.lengths) : Writes m.instructions m.encode :=
  (Writing.concat_writes fun content listed =>
    Section.writes (List.forall_mem_flatMap.mp short content listed)).map _

/-- **What keeps a module from being written.** If no length is too great, that is an instruction
without a row in the opcode table, or with an immediate that is not what its row asks for. Of
these the first is blamed, by its full mnemonic, and for its immediate by the shape that is
asked for. -/
theorem encode_blames (m : Module) (short : Short m.lengths) :
    ((∃ fault, m.encode = .error fault) ↔
      ∃ instruction ∈ m.instructions, ¬ instruction.Tabled) ∧
    (∀ before faulty after, m.instructions = before ++ faulty :: after →
      (∀ instruction ∈ before, instruction.Tabled) → ¬ faulty.Tabled →
        (faulty.operation? = none → m.encode = .error (.unknownInstruction faulty.mnemonic)) ∧
        (∀ operation, faulty.operation? = some operation →
          m.encode = .error (.malformedImmediate faulty.mnemonic operation.shape?) ∧
            EncodeError.message (.malformedImmediate faulty.mnemonic operation.shape?) =
              "instruction `" ++ faulty.mnemonic ++ "` expects a " ++
                (operation.shape?.map ImmediateShape.name).getD "no" ++ " immediate")) := by
  have writes := m.writes_encode short
  refine ⟨writes.fails_iff, fun before faulty after split tabled untabled => ?_⟩
  rw [split] at writes
  refine ⟨fun unknown => writes.blames tabled ?_,
    fun operation row => ⟨writes.blames tabled ?_, rfl⟩⟩
  · rw [Instruction.fault?, unknown]
  · rw [Instruction.fault?, row]
    refine if_neg fun fits => untabled ?_
    rw [Instruction.Tabled, row, Option.map_some, fits]

/-- A module with a call that has a constant for its immediate, and behind it an instruction that
the opcode table does not know. -/
def miscalled : Module where
  sections := [.globals [⟨⟨.i32, false⟩, ⟨"const", some .i32, some (.int32 0)⟩⟩],
    .code [⟨[], [⟨"br_table", none, some (.branchTable [0] 0)⟩, ⟨"end", none, none⟩]⟩,
      ⟨[], [⟨"call", none, some (.int64 1)⟩, ⟨"end", none, none⟩]⟩],
    .data [⟨0, ⟨"frobnicate", some .i32, none⟩, [1]⟩]]

/-- A call without an index is the first instruction that has no bytes. -/
theorem encode_blames_miscalled :
    Short miscalled.lengths ∧
      miscalled.encode = .error (.malformedImmediate "call" (some .index)) := by
  have short : Short miscalled.lengths := by decide +kernel
  obtain ⟨_, first⟩ := encode_blames miscalled short
  have blamed := first
    [⟨"const", some .i32, some (.int32 0)⟩, ⟨"br_table", none, some (.branchTable [0] 0)⟩,
      ⟨"end", none, none⟩]
    ⟨"call", none, some (.int64 1)⟩
    [⟨"end", none, none⟩, ⟨"frobnicate", some .i32, none⟩] rfl (by decide) (by decide)
  exact ⟨short, (blamed.2 ⟨0x10, none, "call"⟩ (by decide)).1⟩

end Module

end WasmGas

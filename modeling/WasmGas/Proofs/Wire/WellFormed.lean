import WasmGas.Proofs.Wire.Reencode

/-! # Modules that have a file

The opcode table has a row for some instructions, and the row asks for an immediate of some shape.
Only instructions that have this immediate can be written (`Instruction.write_failsWith_iff`). A
module is well-formed if all its instructions are of this kind, and if its debug names are taken
apart where they stand (`Module.WellFormed`). This is what the modules are like that are found in
files (`Module.wellFormed_of_decode`). Such a module can be written unless something in it is too
long, and then it is found again.
-/

namespace WasmGas

/-- Faults of something that is too long, which tell how long it is. -/
def EncodeError.OfLength : EncodeError → Prop
  | lengthOverflow _ length => UInt32.size ≤ length
  | _ => False

/-! ## Frames -/

namespace Writing

variable {α : Type}

/-- A length is too great or it can be written. -/
theorem length_failsWith (what : String) (n : Nat) :
    Except.FailsWith EncodeError.OfLength (length what n) := by
  rw [length, ← ite_not]
  exact .check Nat.le_of_not_lt

/-- A list fails with what its entries fail with. -/
theorem concat_failsWith {entry : α → Writing} {entries : List α}
    (each : ∀ a ∈ entries, Except.FailsWith EncodeError.OfLength (entry a)) :
    Except.FailsWith EncodeError.OfLength (concat entry entries) := by
  induction entries with
  | nil => exact .pure _
  | cons head tail fails =>
      obtain ⟨one, others⟩ := List.forall_mem_cons.mp each
      exact one.bind fun _ => (fails others).bind fun _ => .pure _

theorem counted_failsWith (what : String) {entry : α → Writing} {entries : List α}
    (each : ∀ a ∈ entries, Except.FailsWith EncodeError.OfLength (entry a)) :
    Except.FailsWith EncodeError.OfLength (counted what entry entries) :=
  (length_failsWith what entries.length).bind fun _ => (concat_failsWith each).bind fun _ => .pure _

theorem sized_failsWith (what : String) (content : Bytes) :
    Except.FailsWith EncodeError.OfLength (sized what content) :=
  (length_failsWith what content.length).bind fun _ => .pure _

theorem name_failsWith (text : String) : Except.FailsWith EncodeError.OfLength (name text) :=
  sized_failsWith "name" _

/-- Entries that are written together can be written one by one. -/
theorem exists_of_concat {entry : α → Writing} {entries : List α} {bytes : Bytes}
    (written : concat entry entries = .ok bytes) : ∀ a ∈ entries, ∃ part, entry a = .ok part := by
  induction entries generalizing bytes with
  | nil => exact nofun
  | cons head tail each =>
      obtain ⟨first, others, one, rest, _⟩ := concat_cons_eq_ok.mp written
      exact List.forall_mem_cons.mpr ⟨⟨first, one⟩, each rest⟩

/-- Where a counted list is written, each of its entries is. -/
theorem exists_of_counted {what : String} {entry : α → Writing} {entries : List α} {bytes : Bytes}
    (written : counted what entry entries = .ok bytes) :
    ∀ a ∈ entries, ∃ part, entry a = .ok part := by
  obtain ⟨content, _, concat, _⟩ := counted_eq_ok.mp written
  exact exists_of_concat concat

end Writing

/-! ## Instructions -/

/-- An immediate fails for a length alone. -/
theorem Immediate.write_failsWith (immediate : Immediate) :
    Except.FailsWith EncodeError.OfLength immediate.write := by
  cases immediate with
  | branchTable targets default =>
      exact (Writing.counted_failsWith "br_table" fun _ _ => .pure _).bind fun _ => .pure _
  | _ => exact .pure _

namespace Instruction

/-- Whether the opcode table has a row for an instruction, and this asks for its immediate. -/
def Tabled (instruction : Instruction) : Prop :=
  instruction.operation?.map Operation.shape? = some (instruction.immediate.map Immediate.shape)

instance (instruction : Instruction) : Decidable instruction.Tabled :=
  inferInstanceAs (Decidable (_ = _))

/-- The value of an immediate is no matter of the opcode table. -/
theorem Tabled.of_shape {one other : Instruction} (tabled : one.Tabled)
    (name : other.name = one.name) (qualifier : other.qualifier = one.qualifier)
    (shape : other.immediate.map Immediate.shape = one.immediate.map Immediate.shape) :
    other.Tabled := by
  rw [Tabled, operation?, name, qualifier, shape]
  exact tabled

/-- The shape of an immediate is not blamed just where it is the one of the operation. -/
theorem writeImmediate_failsWith_iff {instruction : Instruction} {shape? : Option ImmediateShape} :
    Except.FailsWith EncodeError.OfLength (instruction.writeImmediate shape?) ↔
      shape? = instruction.immediate.map Immediate.shape := by
  rw [writeImmediate]
  cases instruction.immediate with
  | none =>
      by_cases bare : shape? = none
      · simpa only [bare, ↓reduceIte, Option.map_none, iff_true] using Except.FailsWith.pure []
      · refine iff_of_false (fun fails => ?_) bare
        simp only [bare, ↓reduceIte] at fails
        exact fails _ rfl
  | some immediate =>
      by_cases fits : shape? = some immediate.shape
      · simpa only [fits, ↓reduceIte, Option.map_some, iff_true] using immediate.write_failsWith
      · refine iff_of_false (fun fails => ?_) fits
        simp only [fits, ↓reduceIte] at fails
        exact fails _ rfl

/-- Just the instructions of the opcode table can be written, unless they are too long. -/
theorem write_failsWith_iff {instruction : Instruction} :
    Except.FailsWith EncodeError.OfLength instruction.write ↔ instruction.Tabled := by
  rw [write, Tabled]
  cases instruction.operation? with
  | none => exact iff_of_false (fun fails => fails _ rfl) nofun
  | some operation =>
      rw [Option.map_some, Option.some_inj, ← writeImmediate_failsWith_iff]
      exact ⟨Except.FailsWith.first, fun fails => fails.bind fun _ => .pure _⟩

/-- An instruction that can be written has a row in the table. -/
theorem tabled_of_write {instruction : Instruction} {bytes : Bytes}
    (written : instruction.write = .ok bytes) : instruction.Tabled :=
  write_failsWith_iff.mp (.of_ok written)

/-- An initializer with a row in the table fails for a length alone. -/
theorem Tabled.initializer_failsWith {instruction : Instruction} (tabled : instruction.Tabled) :
    Except.FailsWith EncodeError.OfLength (Writing.initializer instruction) :=
  (write_failsWith_iff.mpr tabled).bind fun _ => .pure _

/-- An initializer that can be written has a row in the table. -/
theorem tabled_of_initializer {instruction : Instruction} {bytes : Bytes}
    (written : Writing.initializer instruction = .ok bytes) : instruction.Tabled := by
  obtain ⟨_, one, _⟩ := Except.bind_eq_ok.mp written
  exact tabled_of_write one

end Instruction

/-! ## Entries without instructions -/

theorem Signature.write_failsWith (signature : Signature) :
    Except.FailsWith EncodeError.OfLength signature.write :=
  (Writing.counted_failsWith "type" fun _ _ => .pure _).bind fun _ =>
    (Writing.counted_failsWith "type" fun _ _ => .pure _).bind fun _ => .pure _

theorem ImportEntry.write_failsWith (entry : ImportEntry) :
    Except.FailsWith EncodeError.OfLength entry.write :=
  (Writing.name_failsWith entry.module).bind fun _ =>
    (Writing.name_failsWith entry.field).bind fun _ => .pure _

theorem ExportEntry.write_failsWith (entry : ExportEntry) :
    Except.FailsWith EncodeError.OfLength entry.write :=
  (Writing.name_failsWith entry.field).bind fun _ => .pure _

theorem NameEntry.write_failsWith (entry : NameEntry) :
    Except.FailsWith EncodeError.OfLength entry.write :=
  (Writing.name_failsWith entry.name).bind fun _ => .pure _

theorem LocalNames.write_failsWith (group : LocalNames) :
    Except.FailsWith EncodeError.OfLength group.write :=
  (Writing.counted_failsWith "name map" fun entry _ => entry.write_failsWith).bind fun _ => .pure _

theorem NameSubsection.write_failsWith (subsection : NameSubsection) :
    Except.FailsWith EncodeError.OfLength subsection.write := by
  have payload : Except.FailsWith EncodeError.OfLength subsection.writePayload := by
    cases subsection with
    | moduleName name => exact Writing.name_failsWith name
    | functionNames names =>
        exact Writing.counted_failsWith "name map" fun entry _ => entry.write_failsWith
    | localNames groups =>
        exact Writing.counted_failsWith "local names" fun group _ => group.write_failsWith
    | unknown kind payload => exact .pure payload
  exact payload.bind fun bytes => (Writing.sized_failsWith _ bytes).bind fun _ => .pure _

theorem CustomPayload.write_failsWith (payload : CustomPayload) :
    Except.FailsWith EncodeError.OfLength payload.write := by
  cases payload with
  | raw bytes => exact .pure bytes
  | names subsections =>
      exact Writing.concat_failsWith fun subsection _ => subsection.write_failsWith

/-! ## Sections -/

namespace Section

/-- The instructions of a section, in the order in which they are written. -/
def instructions : Section → List Instruction
  | globals entries => entries.map (·.init)
  | elements entries => entries.map (·.offset)
  | code bodies => bodies.flatMap (·.code)
  | data segments => segments.map (·.offset)
  | _ => []

/-- Sections as they are found in files. -/
structure WellFormed (content : Section) : Prop where
  tabled : ∀ instruction ∈ content.instructions, instruction.Tabled
  asRead : content.AsRead

/-- A payload whose instructions have rows in the table fails for a length alone. -/
theorem writePayload_failsWith {content : Section}
    (tabled : ∀ instruction ∈ content.instructions, instruction.Tabled) :
    Except.FailsWith EncodeError.OfLength content.writePayload := by
  cases content with
  | custom name payload =>
      exact (Writing.name_failsWith name).bind fun _ =>
        payload.write_failsWith.bind fun _ => .pure _
  | types entries =>
      exact Writing.counted_failsWith "type" fun signature _ => signature.write_failsWith
  | imports entries =>
      exact Writing.counted_failsWith "import" fun entry _ => entry.write_failsWith
  | functions typeIndices => exact Writing.counted_failsWith "function" fun _ _ => .pure _
  | tables entries => exact Writing.counted_failsWith "table" fun _ _ => .pure _
  | memories entries => exact Writing.counted_failsWith "memory" fun _ _ => .pure _
  | globals entries =>
      refine Writing.counted_failsWith "global" fun entry inside => ?_
      have held := tabled entry.init (List.mem_map_of_mem inside)
      exact held.initializer_failsWith.bind fun _ => .pure _
  | exports entries =>
      exact Writing.counted_failsWith "export" fun entry _ => entry.write_failsWith
  | start index => exact .pure _
  | elements entries =>
      refine Writing.counted_failsWith "element" fun entry inside => ?_
      have held := tabled entry.offset (List.mem_map_of_mem inside)
      exact held.initializer_failsWith.bind fun _ =>
        (Writing.counted_failsWith "element" fun _ _ => .pure _).bind fun _ => .pure _
  | code bodies =>
      refine Writing.counted_failsWith "code" fun body inside => ?_
      have code : Except.FailsWith EncodeError.OfLength
          (Writing.concat Instruction.write body.code) :=
        Writing.concat_failsWith fun instruction listed =>
          Instruction.write_failsWith_iff.mpr
            (tabled instruction (List.mem_flatMap_of_mem inside listed))
      exact (Writing.counted_failsWith "locals" fun _ _ => .pure _).bind fun _ =>
        code.bind fun _ => Writing.sized_failsWith "function body" _
  | data segments =>
      refine Writing.counted_failsWith "data" fun segment inside => ?_
      have held := tabled segment.offset (List.mem_map_of_mem inside)
      exact held.initializer_failsWith.bind fun _ =>
        (Writing.sized_failsWith "data segment" segment.bytes).bind fun _ => .pure _
  | dataCount count => exact .pure _

/-- A section that is well formed fails for a length alone. -/
theorem WellFormed.write_failsWith {content : Section} (wellFormed : content.WellFormed) :
    Except.FailsWith EncodeError.OfLength content.write :=
  (writePayload_failsWith wellFormed.tabled).bind fun payload =>
    (Writing.sized_failsWith content.kind.name payload).bind fun _ => .pure _

/-- The instructions of a payload that can be written have rows in the table. -/
theorem tabled_of_writePayload {content : Section} {bytes : Bytes}
    (written : content.writePayload = .ok bytes) :
    ∀ instruction ∈ content.instructions, instruction.Tabled := by
  intro instruction listed
  cases content with
  | globals entries =>
      obtain ⟨entry, inside, rfl⟩ := List.mem_map.mp listed
      obtain ⟨_, one⟩ := Writing.exists_of_counted written entry inside
      obtain ⟨_, init, _⟩ := Except.bind_eq_ok.mp one
      exact Instruction.tabled_of_initializer init
  | elements entries =>
      obtain ⟨entry, inside, rfl⟩ := List.mem_map.mp listed
      obtain ⟨_, one⟩ := Writing.exists_of_counted written entry inside
      obtain ⟨_, offset, _⟩ := Except.bind_eq_ok.mp one
      exact Instruction.tabled_of_initializer offset
  | code bodies =>
      obtain ⟨body, inside, held⟩ := List.mem_flatMap.mp listed
      obtain ⟨_, one⟩ := Writing.exists_of_counted written body inside
      obtain ⟨_, _, rest⟩ := Except.bind_eq_ok.mp one
      obtain ⟨_, code, _⟩ := Except.bind_eq_ok.mp rest
      obtain ⟨_, single⟩ := Writing.exists_of_concat code instruction held
      exact Instruction.tabled_of_write single
  | data segments =>
      obtain ⟨segment, inside, rfl⟩ := List.mem_map.mp listed
      obtain ⟨_, one⟩ := Writing.exists_of_counted written segment inside
      obtain ⟨_, offset, _⟩ := Except.bind_eq_ok.mp one
      exact Instruction.tabled_of_initializer offset
  | _ => cases listed

end Section

/-! ## Modules -/

namespace Module

/-- Modules as they are found in files. -/
def WellFormed (m : Module) : Prop := ∀ content ∈ m.sections, content.WellFormed

/-- A module that is well formed fails for a length alone. -/
theorem WellFormed.encode_failsWith {m : Module} (wellFormed : m.WellFormed) :
    Except.FailsWith EncodeError.OfLength m.encode :=
  (Writing.concat_failsWith fun content inside =>
    (wellFormed content inside).write_failsWith).bind fun _ => .pure _

/-- A module that is well formed is as it would be read. -/
theorem WellFormed.asRead {m : Module} (wellFormed : m.WellFormed) : m.AsRead :=
  fun content inside => (wellFormed content inside).asRead

/-- What is found in a file can be written there again. -/
theorem wellFormed_of_decode {bytes : Bytes} {m : Module} (decoded : decode bytes = .ok m) :
    m.WellFormed := by
  obtain ⟨_, read, _⟩ := read_of_decode decoded
  obtain ⟨_, written, _, ⟨encoded, asRead⟩, _⟩ := rewrites read
  obtain ⟨_, sections, _⟩ := Except.bind_eq_ok.mp encoded
  intro content inside
  obtain ⟨_, one⟩ := Writing.exists_of_concat sections content inside
  obtain ⟨_, payload, _⟩ := Except.bind_eq_ok.mp one
  exact ⟨Section.tabled_of_writePayload payload, asRead content inside⟩

end Module

end WasmGas

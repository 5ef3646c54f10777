import Mathlib.Data.List.Nodup
import WasmGas.Proofs.Wire.ReadBack
import WasmGas.Proofs.Wire.Rewriting

/-! # Encoding what was decoded

Every part of a module that was read can be written (`Reader.Script.Rewrites`), so a module
that was decoded can be encoded. The new file holds the same module, is a shortest one that
does, and is the old file exactly if each number stood there as it is written
(`Module.reencode`).
-/

namespace WasmGas

open Reader Reader.Script

/-- The byte of a type is the only one that is read as that type. -/
theorem rewrites_valueType :
    valueType.Rewrites fun type written => written = [type.toByte] := by
  apply rewrites_code.mono
  rintro type _ ⟨value, known, rfl⟩
  rw [ValueType.ofByte?_eq_some_iff.mp known]

theorem rewrites_externalKind :
    externalKind.Rewrites fun kind written => written = [kind.toByte] := by
  apply rewrites_code.mono
  rintro kind _ ⟨value, known, rfl⟩
  rw [ExternalKind.ofByte?_eq_some_iff.mp known]

/-- A counted list of types differs from what is written in its count alone. -/
theorem rewrites_valueTypes (what : String) :
    Script.valueType.counted.Rewrites fun types written =>
      Writing.counted what (fun type => pure [type.toByte]) types = .ok written :=
  rewrites_countedPure what rewrites_valueType

/-- A counted list of indices is written with shortest groups. -/
theorem rewrites_indices (what : String) :
    Script.uint32.counted.Rewrites fun indices written =>
      Writing.counted what (fun index => pure (WasmGas.uint32 index)) indices = .ok written :=
  rewrites_countedPure what rewrites_uint32

/-! ## Words and instructions -/

/-- What some bytes say is below what one byte more could say. -/
theorem ofLittleEndian_lt (bytes : Bytes) : ofLittleEndian bytes < 256 ^ bytes.length := by
  induction bytes with
  | nil => exact Nat.one_pos
  | cons head tail bounded =>
      have byte := head.toNat_lt
      rw [ofLittleEndian, List.length_cons, pow_succ]
      omega

/-- The bytes of a number of fixed width are determined by it. -/
theorem littleEndian_ofLittleEndian (bytes : Bytes) :
    littleEndian bytes.length (ofLittleEndian bytes) = bytes := by
  induction bytes with
  | nil => rfl
  | cons head tail same =>
      have byte := head.toNat_lt
      have low : ofLittleEndian (head :: tail) % 256 = head.toNat := by
        rw [ofLittleEndian]
        omega
      have high : ofLittleEndian (head :: tail) / 256 = ofLittleEndian tail := by
        rw [ofLittleEndian]
        omega
      rw [List.length_cons, littleEndian, low, high, same, UInt8.ofNat_toNat]

/-- Four bytes are those of the word that they say. -/
theorem word32_ofLittleEndian {bytes : Bytes} (long : bytes.length = 4) :
    word32 (UInt32.ofNat (ofLittleEndian bytes)) = bytes := by
  have small := ofLittleEndian_lt bytes
  rw [long] at small
  have same := littleEndian_ofLittleEndian bytes
  rw [long] at same
  rw [word32, UInt32.toNat_ofNat_of_lt' small, same]

/-- A word of four bytes is written as it was read. -/
theorem rewrites_word32 :
    Script.word32.Rewrites fun word written => written = WasmGas.word32 word := by
  apply (rewrites_take 4).map
  rintro _ bytes ⟨long, rfl⟩
  exact (word32_ofLittleEndian long).symm

theorem rewrites_word64 :
    Script.word64.Rewrites fun word written => written = WasmGas.word64 word := by
  apply (rewrites_take 8).map
  rintro _ bytes ⟨long, rfl⟩
  have small := ofLittleEndian_lt bytes
  rw [long] at small
  have same := littleEndian_ofLittleEndian bytes
  rw [long] at same
  rw [WasmGas.word64, UInt64.toNat_ofNat_of_lt' small, same]

/-- What is read for a shape is an immediate of that shape, and it can be written. -/
theorem ImmediateShape.rewrites (shape : ImmediateShape) :
    shape.script.Rewrites fun immediate written =>
      immediate.shape = shape ∧ immediate.write = .ok written := by
  cases shape with
  | byte =>
      apply rewrites_byte.map
      rintro value _ rfl
      exact ⟨rfl, rfl⟩
  | index =>
      apply rewrites_uint32.map
      rintro value _ rfl
      exact ⟨rfl, rfl⟩
  | int32 =>
      apply rewrites_int32.map
      rintro value _ rfl
      exact ⟨rfl, rfl⟩
  | int64 =>
      apply rewrites_int64.map
      rintro value _ rfl
      exact ⟨rfl, rfl⟩
  | float32 =>
      apply rewrites_word32.map
      rintro bits _ rfl
      exact ⟨rfl, rfl⟩
  | float64 =>
      apply rewrites_word64.map
      rintro bits _ rfl
      exact ⟨rfl, rfl⟩
  | blockType =>
      apply rewrites_valueType.map
      rintro type _ rfl
      exact ⟨rfl, rfl⟩
  | branchTable =>
      refine (rewrites_indices "br_table").bind fun targets => ?_
      apply rewrites_uint32.map
      rintro default _ rfl labels listed
      exact ⟨rfl, Except.bind_eq_ok.mpr ⟨labels, listed, rfl⟩⟩
  | callIndirect =>
      refine rewrites_uint32.bind fun typeIndex => ?_
      apply rewrites_byte.map
      rintro reserved _ rfl _ rfl
      exact ⟨rfl, rfl⟩
  | memory =>
      refine rewrites_uint32.bind fun flags => ?_
      apply rewrites_uint32.map
      rintro offset _ rfl _ rfl
      exact ⟨rfl, rfl⟩

/-- No two operations of one qualifier have one name. -/
theorem Operation.nodup_names (qualifier : Option Qualifier) :
    ((Operation.all.filter (·.qualifier == qualifier)).map (·.name)).Nodup := by
  have each : ∀ qualifier ∈ none :: Qualifier.all.map some,
      ((Operation.all.filter (·.qualifier == qualifier)).map (·.name)).Nodup := by
    decide +kernel
  apply each qualifier
  rcases qualifier with _ | qualifier
  · decide
  · cases qualifier <;> decide

/-- A row is found by its qualifier and its name. -/
theorem Operation.ofMnemonic?_name {operation : Operation} (row : operation ∈ Operation.all) :
    Operation.ofMnemonic? operation.qualifier operation.name = some operation := by
  cases found : Operation.ofMnemonic? operation.qualifier operation.name with
  | none =>
      have absent := List.find?_eq_none.mp found operation row
      simp only [beq_self_eq_true, Bool.and_self, not_true_eq_false] at absent
  | some other =>
      have same := List.find?_some found
      simp only [Bool.and_eq_true, beq_iff_eq] at same
      have inside : ∀ row ∈ Operation.all, row.qualifier = operation.qualifier →
          row ∈ Operation.all.filter (·.qualifier == operation.qualifier) := by
        intro row listed qualified
        exact List.mem_filter.mpr ⟨listed, beq_iff_eq.mpr qualified⟩
      have one := List.inj_on_of_nodup_map (Operation.nodup_names operation.qualifier)
        (inside other (List.mem_of_find?_eq_some found) same.1) (inside operation row rfl) same.2
      rw [one]

/-- An operation that is found by an opcode has it. -/
theorem Operation.ofOpcode?_eq_some {opcode : UInt8} {operation : Operation}
    (known : Operation.ofOpcode? opcode = some operation) :
    operation.opcode = opcode ∧ operation ∈ Operation.all := by
  have same := List.find?_some known
  exact ⟨eq_of_beq same, List.mem_of_find?_eq_some known⟩

/-- What is read for an instruction can be written as its immediate. -/
theorem ImmediateShape.rewrites_optional (shape? : Option ImmediateShape) :
    (ImmediateShape.optionalScript shape?).Rewrites fun immediate written =>
      ∀ {name qualifier}, Instruction.writeImmediate ⟨name, qualifier, immediate⟩ shape? =
        .ok written := by
  cases shape? with
  | none =>
      apply rewrites_pure
      intro name qualifier
      rfl
  | some shape =>
      apply shape.rewrites.map
      rintro immediate written ⟨shaped, further⟩ name qualifier
      rw [Instruction.writeImmediate]
      simp only [shaped, ↓reduceIte, further]

/-- An instruction that was read can be written. -/
theorem Instruction.rewrites :
    Instruction.script.Rewrites fun instruction written => instruction.write = .ok written := by
  refine rewrites_code.bind fun operation => ?_
  apply (ImmediateShape.rewrites_optional operation.shape?).map
  rintro immediate tail written _ ⟨value, known, rfl⟩
  obtain ⟨rfl, row⟩ := Operation.ofOpcode?_eq_some known
  exact Instruction.write_eq_ok.mpr
    ⟨operation, tail, Operation.ofMnemonic?_name row, written, rfl⟩

/-- Every instruction that is read can be written, whatever it is. -/
theorem Instruction.rewrites_true :
    Instruction.script.Rewrites fun instruction written =>
      instruction.write = .ok written ∧ True :=
  Instruction.rewrites.mono fun _ _ one => ⟨one, trivial⟩

/-- An initializer that was read can be written, with the terminator behind it. -/
theorem rewrites_initializer :
    initializer.Rewrites fun instruction written =>
      Writing.initializer instruction = .ok written := by
  refine Instruction.rewrites.bind fun instruction => ?_
  refine rewrites_offset.bind fun start => ?_
  refine rewrites_byte.bind fun closing => ?_
  refine rewrites_ite (fun closes => ?_) fun _ => rewrites_throw
  apply rewrites_pure
  rintro _ rfl _ rfl content one
  rw [closes]
  exact Except.bind_eq_ok.mpr ⟨content, one, rfl⟩

/-! ## Entries -/

theorem Signature.rewrites :
    Signature.script.Rewrites fun signature written => signature.write = .ok written := by
  refine rewrites_valueType.bind fun form => ?_
  refine (rewrites_valueTypes "type").bind fun params => ?_
  apply (rewrites_valueTypes "type").map
  rintro returns others further head listed _ rfl
  exact Except.bind_eq_ok.mpr ⟨head, listed, Except.bind_eq_ok.mpr ⟨others, further, rfl⟩⟩

theorem Limits.rewrites :
    Limits.script.Rewrites fun limits written => written = limits.write := by
  refine rewrites_offset.bind fun start => ?_
  refine rewrites_uint32.bind fun flags => ?_
  refine rewrites_uint32.bind fun initial => ?_
  refine rewrites_ite (fun unbounded => ?_) fun _ => ?_
  · apply rewrites_pure
    rintro _ rfl _ rfl _ rfl
    rw [unbounded, List.append_nil, List.nil_append, Limits.write]
  refine rewrites_ite (fun bounded => ?_) fun _ => rewrites_throw
  apply rewrites_uint32.map
  rintro maximum _ rfl _ rfl _ rfl _ rfl
  simp only [bounded, List.nil_append, Limits.write, List.append_assoc]

theorem TableType.rewrites :
    TableType.script.Rewrites fun type written => written = type.write := by
  refine rewrites_valueType.bind fun element => ?_
  apply Limits.rewrites.map
  rintro limits _ rfl _ rfl
  rfl

/-- The byte of a mutability is the only one that is read as it. -/
theorem mutabilityOfByte?_eq_some {value : UInt8} {mutable : Bool}
    (known : mutabilityOfByte? value = some mutable) : value = mutabilityToByte mutable := by
  unfold mutabilityOfByte? at known
  by_cases fixed : value = 0
  · rw [if_pos fixed] at known
    cases known
    exact fixed
  · rw [if_neg fixed] at known
    by_cases changing : value = 1
    · rw [if_pos changing] at known
      cases known
      exact changing
    · rw [if_neg changing] at known
      cases known

theorem GlobalType.rewrites :
    GlobalType.script.Rewrites fun type written => written = type.write := by
  refine rewrites_valueType.bind fun content => ?_
  apply rewrites_code.map
  rintro mutable _ ⟨value, known, rfl⟩ _ rfl
  rw [mutabilityOfByte?_eq_some known]
  rfl

/-- What is read for a kind is of that kind. -/
theorem ExternalKind.rewrites_descriptor (kind : ExternalKind) :
    kind.descriptorScript.Rewrites fun descriptor written =>
      descriptor.kind = kind ∧ written = descriptor.write := by
  cases kind with
  | function => exact rewrites_uint32.map fun _ _ same => ⟨rfl, same⟩
  | table => exact TableType.rewrites.map fun _ _ same => ⟨rfl, same⟩
  | memory => exact Limits.rewrites.map fun _ _ same => ⟨rfl, same⟩
  | global => exact GlobalType.rewrites.map fun _ _ same => ⟨rfl, same⟩

theorem ImportEntry.rewrites :
    ImportEntry.script.Rewrites fun entry written => entry.write = .ok written := by
  refine rewrites_name.bind fun module => ?_
  refine rewrites_name.bind fun field => ?_
  refine rewrites_externalKind.bind fun kind => ?_
  apply kind.rewrites_descriptor.map
  rintro descriptor _ ⟨rfl, rfl⟩ _ rfl second further first named
  rw [← List.append_assoc]
  exact Except.bind_eq_ok.mpr ⟨first, named, Except.bind_eq_ok.mpr ⟨second, further, rfl⟩⟩

theorem GlobalEntry.rewrites :
    GlobalEntry.script.Rewrites fun entry written => entry.write = .ok written := by
  refine GlobalType.rewrites.bind fun type => ?_
  apply rewrites_initializer.map
  rintro init written one _ rfl
  exact Except.bind_eq_ok.mpr ⟨written, one, rfl⟩

theorem ExportEntry.rewrites :
    ExportEntry.script.Rewrites fun entry written => entry.write = .ok written := by
  refine rewrites_name.bind fun field => ?_
  refine rewrites_externalKind.bind fun kind => ?_
  apply rewrites_uint32.map
  rintro index _ rfl _ rfl first named
  exact Except.bind_eq_ok.mpr ⟨first, named, rfl⟩

theorem ElementEntry.rewrites :
    ElementEntry.script.Rewrites fun entry written => entry.write = .ok written := by
  refine rewrites_uint32.bind fun table => ?_
  refine rewrites_initializer.bind fun offset => ?_
  apply (rewrites_indices "element").map
  rintro functions last listed second one _ rfl
  rw [← List.append_assoc]
  exact Except.bind_eq_ok.mpr ⟨second, one, Except.bind_eq_ok.mpr ⟨last, listed, rfl⟩⟩

theorem LocalGroup.rewrites :
    LocalGroup.script.Rewrites fun group written => written = group.write := by
  refine rewrites_uint32.bind fun count => ?_
  apply rewrites_valueType.map
  rintro type _ rfl _ rfl
  rfl

theorem DataSegment.rewrites :
    DataSegment.script.Rewrites fun segment written => segment.write = .ok written := by
  refine rewrites_uint32.bind fun memory => ?_
  refine rewrites_initializer.bind fun offset => ?_
  apply (rewrites_blob "data segment").map
  rintro bytes last sized second one _ rfl
  rw [← List.append_assoc]
  exact Except.bind_eq_ok.mpr ⟨second, one, Except.bind_eq_ok.mpr ⟨last, sized, rfl⟩⟩

/-- What is written for a body behind its size. -/
def FunctionBody.WritesContent (body : FunctionBody) (written : Bytes) : Prop :=
  ∃ locals code, Writing.counted "locals" (fun group => pure group.write) body.locals = .ok locals ∧
    Writing.concat Instruction.write body.code = .ok code ∧ written = locals ++ code

/-- What stands behind the size of a body can be written. -/
theorem FunctionBody.rewrites_content :
    FunctionBody.contentScript.Rewrites FunctionBody.WritesContent := by
  have locals := rewrites_countedPure "locals" LocalGroup.rewrites
  have code := rewrites_untilEmpty Instruction.rewrites_true Instruction.write_ne_nil
  refine locals.bind fun groups => code.map ?_
  rintro instructions others ⟨further, _⟩ first listed
  exact ⟨first, others, listed, further, rfl⟩

/-- The instructions of a body go on to the end of its bytes. -/
theorem FunctionBody.rest_of_readContent ⦃cursor left : Cursor⦄ ⦃body : FunctionBody⦄
    (read : FunctionBody.readContent cursor = .ok body left) : left.rest = [] := by
  obtain ⟨_, _, _, read⟩ := bind_eq_ok.mp read
  obtain ⟨_, _, instructions, put⟩ := bind_eq_ok.mp read
  cases put
  exact (rewriting_untilEmpty Instruction.rewrites_true Instruction.write_ne_nil instructions).1

/-- A body that was read can be written, its size included. -/
theorem FunctionBody.rewrites :
    FunctionBody.script.Rewrites fun body written => body.write = .ok written := by
  have sized : FunctionBody.script.Rewrites fun body written => ∃ content,
      body.WritesContent content ∧ Writing.sized "function body" content = .ok written := by
    refine rewrites_sized "function body" (fun size => ?_) ?_
    · exact (rewrites_within rewrites_content rest_of_readContent).map fun _ _ formed => formed
    intro size cursor after body read
    obtain ⟨_, _, found, put⟩ := bind_eq_ok.mp read
    cases put
    exact remaining_of_within found
  apply sized.mono
  rintro body written ⟨_, ⟨locals, code, listed, further, rfl⟩, sized⟩
  exact Except.bind_eq_ok.mpr ⟨locals, listed, Except.bind_eq_ok.mpr ⟨code, further, sized⟩⟩

/-! ## Debug names -/

theorem NameEntry.rewrites :
    NameEntry.script.Rewrites fun entry written => entry.write = .ok written := by
  refine rewrites_uint32.bind fun index => ?_
  apply rewrites_name.map
  rintro name second named _ rfl
  exact Except.bind_eq_ok.mpr ⟨second, named, rfl⟩

theorem LocalNames.rewrites :
    LocalNames.script.Rewrites fun group written => group.write = .ok written := by
  refine rewrites_uint32.bind fun function => ?_
  apply (rewrites_counted "name map" NameEntry.rewrites).map
  rintro names second listed _ rfl
  exact Except.bind_eq_ok.mpr ⟨second, listed, rfl⟩

namespace NameSubsection

/-- What is read for a kind of name subsection is of that kind, and as it would be read. -/
theorem rewrites_payload (kind : UInt8) :
    (payloadScript kind).Rewrites fun subsection written =>
      subsection.kind = kind ∧ subsection.AsRead ∧ subsection.writePayload = .ok written := by
  refine rewrites_ite (fun ofModule => ?_) fun notModule => ?_
  · apply rewrites_name.map
    rintro name written named
    exact ⟨ofModule.symm, trivial, named⟩
  refine rewrites_ite (fun ofFunctions => ?_) fun notFunctions => ?_
  · apply (rewrites_counted "name map" NameEntry.rewrites).map
    rintro names written listed
    exact ⟨ofFunctions.symm, trivial, listed⟩
  refine rewrites_ite (fun ofLocals => ?_) fun notLocals => ?_
  · apply (rewrites_counted "local names" LocalNames.rewrites).map
    rintro groups written listed
    exact ⟨ofLocals.symm, trivial, listed⟩
  apply rewrites_rest.map
  rintro payload _ rfl
  exact ⟨rfl, ⟨notModule, notFunctions, notLocals⟩, rfl⟩

/-- A name subsection that was read can be written, and it is as it would be read. -/
theorem rewrites :
    script.Rewrites fun subsection written =>
      subsection.write = .ok written ∧ subsection.AsRead := by
  refine rewrites_byte.bind fun kind => ?_
  have regions (size : UInt32) := rewrites_exactly nameSection size.toNat (rewrites_payload kind)
  apply (rewrites_sized "name subsection" regions fun _ _ _ _ => remaining_of_exactly).mono
  rintro subsection region ⟨payload, ⟨rfl, asRead, one⟩, sized⟩ _ rfl
  exact ⟨Except.bind_eq_ok.mpr ⟨payload, one, Except.bind_eq_ok.mpr ⟨region, sized, rfl⟩⟩, asRead⟩

end NameSubsection

/-! ## Sections and modules -/

/-- What a custom section holds can be written, and it fits the name of the section. -/
theorem CustomPayload.rewrites (name : String) :
    (CustomPayload.script name).Rewrites fun payload written =>
      payload.write = .ok written ∧ (Section.custom name payload).AsRead := by
  refine rewrites_ite (fun called => ?_) fun otherwise => ?_
  · apply (rewrites_untilEmpty NameSubsection.rewrites NameSubsection.write_ne_nil).map
    rintro subsections written ⟨listed, asRead⟩
    exact ⟨listed, called, asRead⟩
  · apply rewrites_rest.map
    rintro bytes _ rfl
    exact ⟨rfl, otherwise⟩

/-- What is found in a payload stands in the section of that kind. -/
theorem SectionKind.rewrites (kind : SectionKind) :
    kind.payloadScript.Rewrites fun content written =>
      content.kind = kind ∧ content.AsRead ∧ content.writePayload = .ok written := by
  cases kind with
  | custom =>
      refine rewrites_name.bind fun name => ?_
      apply (CustomPayload.rewrites name).map
      rintro payload second ⟨further, asRead⟩ first named
      exact ⟨rfl, asRead, Except.bind_eq_ok.mpr ⟨first, named,
        Except.bind_eq_ok.mpr ⟨second, further, rfl⟩⟩⟩
  | types =>
      exact (rewrites_counted "type" Signature.rewrites).map fun _ _ listed =>
        ⟨rfl, trivial, listed⟩
  | imports =>
      exact (rewrites_counted "import" ImportEntry.rewrites).map fun _ _ listed =>
        ⟨rfl, trivial, listed⟩
  | functions =>
      exact (rewrites_indices "function").map fun _ _ listed => ⟨rfl, trivial, listed⟩
  | tables =>
      exact (rewrites_countedPure "table" TableType.rewrites).map fun _ _ listed =>
        ⟨rfl, trivial, listed⟩
  | memories =>
      exact (rewrites_countedPure "memory" Limits.rewrites).map fun _ _ listed =>
        ⟨rfl, trivial, listed⟩
  | globals =>
      exact (rewrites_counted "global" GlobalEntry.rewrites).map fun _ _ listed =>
        ⟨rfl, trivial, listed⟩
  | exports =>
      exact (rewrites_counted "export" ExportEntry.rewrites).map fun _ _ listed =>
        ⟨rfl, trivial, listed⟩
  | start =>
      apply rewrites_uint32.map
      rintro index _ rfl
      exact ⟨rfl, trivial, rfl⟩
  | elements =>
      exact (rewrites_counted "element" ElementEntry.rewrites).map fun _ _ listed =>
        ⟨rfl, trivial, listed⟩
  | code =>
      exact (rewrites_counted "code" FunctionBody.rewrites).map fun _ _ listed =>
        ⟨rfl, trivial, listed⟩
  | data =>
      exact (rewrites_counted "data" DataSegment.rewrites).map fun _ _ listed =>
        ⟨rfl, trivial, listed⟩
  | dataCount =>
      apply rewrites_uint32.map
      rintro count _ rfl
      exact ⟨rfl, trivial, rfl⟩

/-- Where a section was found does not matter for how it is written. -/
theorem LocatedSection.rewrites :
    LocatedSection.script.Rewrites fun located written =>
      located.content.write = .ok written ∧ located.content.AsRead := by
  refine rewrites_offset.bind fun start => ?_
  refine rewrites_code.bind fun kind => ?_
  let Formed (located : LocatedSection) (written : Bytes) : Prop :=
    located.content.kind = kind ∧ located.content.AsRead ∧
      located.content.writePayload = .ok written
  refine Rewrites.mono (?_ : Rewrites _ fun located written => ∃ content,
    Formed located content ∧ Writing.sized kind.name content = .ok written) ?_
  · refine rewrites_sized kind.name (fun size => ?_) ?_
    · exact (rewrites_exactly kind.name size.toNat
        (rewrites_blaming kind.name size.toNat kind.rewrites)).map fun _ _ formed => formed
    intro size cursor after located read
    obtain ⟨_, _, found, put⟩ := bind_eq_ok.mp read
    cases put
    exact remaining_of_exactly found
  · rintro located region ⟨payload, ⟨rfl, asRead, one⟩, sized⟩ _ ⟨value, known, rfl⟩ _ rfl
    rw [SectionKind.ofByte?_eq_some_iff.mp known]
    exact ⟨Except.bind_eq_ok.mpr ⟨payload, one, Except.bind_eq_ok.mpr ⟨region, sized, rfl⟩⟩,
      asRead⟩

/-- A section that was read can be written, and it is as it would be read. -/
theorem Section.rewrites :
    Section.script.Rewrites fun content written =>
      content.write = .ok written ∧ content.AsRead :=
  LocatedSection.rewrites.map fun _ _ formed => formed

/-- The eight bytes at the start are written as they were read. -/
theorem Preamble.rewrites :
    Preamble.script.Rewrites fun preamble written => written = preamble.write := by
  refine rewrites_word32.bind fun magic => ?_
  apply rewrites_word32.map
  rintro version _ rfl _ rfl
  rfl

namespace Module

/-- A module is read to the end of the file. -/
theorem read_of_decode {bytes : Bytes} {m : Module} (decoded : decode bytes = .ok m) :
    ∃ after, read (.ofBytes bytes) = .ok m after ∧ after.rest = [] := by
  unfold decode Reader.value at decoded
  cases found : read (.ofBytes bytes) with
  | error fault after =>
      rw [found] at decoded
      cases decoded
  | ok module after =>
      rw [found] at decoded
      cases decoded
      refine ⟨after, rfl, ?_⟩
      obtain ⟨_, _, _, rest⟩ := bind_eq_ok.mp found
      obtain ⟨_, _, sections, put⟩ := bind_eq_ok.mp rest
      cases put
      exact (rewriting_untilEmpty Section.rewrites Section.write_ne_nil sections).1

/-- A module that was read can be written, and it is as it would be read. -/
theorem rewrites :
    script.Rewrites fun m written => m.encode = .ok written ∧ m.AsRead := by
  refine Preamble.rewrites.bind fun preamble => ?_
  apply (rewrites_untilEmpty Section.rewrites Section.write_ne_nil).map
  rintro sections others ⟨listed, asRead⟩ _ rfl
  exact ⟨Except.bind_eq_ok.mpr ⟨others, listed, rfl⟩, asRead⟩

/-- **Encoding what was decoded.** It never fails, and it yields a shortest file with the same
module. The file stays as it is exactly if each number in it stands as it is written. -/
theorem reencode {bytes : Bytes} {m : Module} (decoded : decode bytes = .ok m) :
    ∃ shortest, m.encode = .ok shortest ∧ decode shortest = .ok m ∧
      shortest.length ≤ bytes.length ∧
      (∀ other, decode other = .ok m → shortest.length ≤ other.length) ∧
      (shortest = bytes ↔ ∀ field ∈ script.fields (.ofBytes bytes), field.AsWritten) := by
  have rewritten : ∀ {file}, decode file = .ok m → ∃ written, m.encode = .ok written ∧ m.AsRead ∧
      Rewriting (script.fields (.ofBytes file)) file written := by
    intro file decoded
    obtain ⟨after, read, ends⟩ := read_of_decode decoded
    obtain ⟨used, written, advances, ⟨encoded, asRead⟩, rewriting⟩ := rewrites read
    have all : file = used := by
      rw [← List.append_nil used, ← ends]
      exact advances.rest
    exact ⟨written, encoded, asRead, all ▸ rewriting⟩
  obtain ⟨shortest, encoded, asRead, rewriting⟩ := rewritten decoded
  refine ⟨shortest, encoded, decode_of_encode asRead encoded, rewriting.length_le, ?_,
    rewriting.eq_iff⟩
  intro other same
  obtain ⟨written, again, _, otherRewriting⟩ := rewritten same
  rw [encoded] at again
  cases again
  exact otherRewriting.length_le

/-- The file of a body in which a constant takes a byte too many. -/
def paddedFile : Bytes :=
  [0x00, 0x61, 0x73, 0x6d, 0x01, 0x00, 0x00, 0x00, 0x0a, 0x07, 0x01, 0x05, 0x00, 0x41, 0x80, 0x00,
    0x0b]

/-- What `paddedFile` holds. -/
def constant : Module where
  sections := [.code [⟨[], [⟨"const", some .i32, some (.int32 0)⟩, ⟨"end", none, none⟩]⟩]]

/-- A file with a padded constant is longer than what is written for its module. -/
theorem reencode_paddedFile :
    decode paddedFile = .ok constant ∧ ∃ shortest, constant.encode = .ok shortest ∧
      decode shortest = .ok constant ∧ shortest.length ≤ paddedFile.length ∧
      (∀ other, decode other = .ok constant → shortest.length ≤ other.length) ∧
      shortest ≠ paddedFile := by
  have decoded : decode paddedFile = .ok constant := by decide +kernel
  have padded : ¬ ∀ field ∈ script.fields (.ofBytes paddedFile), field.AsWritten := by
    decide +kernel
  obtain ⟨shortest, encoded, same, shorter, least, kept⟩ := reencode decoded
  exact ⟨decoded, shortest, encoded, same, shorter, least, padded ∘ kept.mp⟩

end Module

end WasmGas

import Mathlib.Data.List.Chain
import WasmGas.Proofs.Wire.Frame
import WasmGas.Wire.Module

/-! # What was written is read back

Whatever a module writes for one of its parts is found again by the reader of that part,
whatever bytes follow (`Reader.ReadsBack`). Two things stand in the way of the same for
whole modules: debug names may be kept as bytes although they would be taken apart, and the
other way round. For modules without either (`Module.AsRead`) reading undoes writing
(`Module.decode_encode`), so that no two of them share a file.
-/

namespace WasmGas

open Reader Leb128

/-! ## Words and instructions -/

/-- A number of some width takes up that many bytes. -/
theorem length_littleEndian (width n : Nat) : (littleEndian width n).length = width := by
  induction width generalizing n with
  | zero => rfl
  | succ width counted => rw [littleEndian, List.length_cons, counted]

/-- Of a number only what fits into its width is read. -/
theorem ofLittleEndian_littleEndian (width n : Nat) :
    ofLittleEndian (littleEndian width n) = n % 256 ^ width := by
  induction width generalizing n with
  | zero => rw [pow_zero, Nat.mod_one, littleEndian, ofLittleEndian]
  | succ width lower =>
      have split : n % 256 ^ (width + 1) = n % 256 + 256 * (n / 256 % 256 ^ width) := by
        rw [pow_succ', Nat.mod_mul]
      rw [littleEndian, ofLittleEndian, lower, split, UInt8.toNat_ofNat']
      omega

/-- A word of four bytes is read as it was. -/
theorem readsBack_word32 (word : UInt32) :
    Reader.word32.ReadsBack word (WasmGas.word32 word) := by
  have small : word.toNat < 256 ^ 4 := word.toNat_lt
  have read := (readsBack_take (littleEndian 4 word.toNat)).map
    fun bytes => UInt32.ofNat (ofLittleEndian bytes)
  rw [length_littleEndian, ofLittleEndian_littleEndian, Nat.mod_eq_of_lt small,
    UInt32.ofNat_toNat] at read
  exact read

theorem readsBack_word64 (word : UInt64) :
    Reader.word64.ReadsBack word (WasmGas.word64 word) := by
  have small : word.toNat < 256 ^ 8 := word.toNat_lt
  have read := (readsBack_take (littleEndian 8 word.toNat)).map
    fun bytes => UInt64.ofNat (ofLittleEndian bytes)
  rw [length_littleEndian, ofLittleEndian_littleEndian, Nat.mod_eq_of_lt small,
    UInt64.ofNat_toNat] at read
  exact read

/-- An unsigned number in groups is read as it was. -/
theorem readsBack_uint32 (n : UInt32) : readUInt32.ReadsBack n (uint32 n) :=
  readsNumber_uint32.readsBack n

theorem readsBack_valueType (type : ValueType) : valueType.ReadsBack type [type.toByte] :=
  readsBack_code (ValueType.ofByte?_toByte type)

/-- What can be written of an immediate is read for its shape. -/
theorem Immediate.readsBack {immediate : Immediate} {bytes : Bytes}
    (written : immediate.write = .ok bytes) :
    immediate.shape.read.ReadsBack immediate bytes := by
  cases immediate with
  | byte value =>
      cases written
      exact (readsBack_byte value).map Immediate.byte
  | index value =>
      cases written
      exact (readsBack_uint32 value).map Immediate.index
  | int32 value =>
      cases written
      exact (readsNumber_int32.readsBack value).map Immediate.int32
  | int64 value =>
      cases written
      exact (readsNumber_int64.readsBack value).map Immediate.int64
  | float32 bits =>
      cases written
      exact (readsBack_word32 bits).map Immediate.float32
  | float64 bits =>
      cases written
      exact (readsBack_word64 bits).map Immediate.float64
  | blockType type =>
      cases written
      exact (readsBack_valueType type).map Immediate.blockType
  | branchTable targets default =>
      obtain ⟨labels, listed, put⟩ := Except.bind_eq_ok.mp written
      cases put
      have targetsRead : (counted readUInt32).ReadsBack targets labels := by
        refine readsBack_counted (fun target _ bytes one => ?_) listed
        cases one
        exact readsBack_uint32 target
      exact targetsRead.bind ((readsBack_uint32 default).map (Immediate.branchTable targets))
  | callIndirect typeIndex reserved =>
      cases written
      exact (readsBack_uint32 typeIndex).bind
        ((readsBack_byte reserved).map (Immediate.callIndirect typeIndex))
  | memory flags offset =>
      cases written
      exact (readsBack_uint32 flags).bind
        ((readsBack_uint32 offset).map (Immediate.memory flags))

/-- The operations stand in the order of their opcodes, so no two share one. -/
theorem Operation.opcodes_increase :
    Operation.all.IsChain fun one other => one.opcode < other.opcode := by
  decide +kernel

/-- No two operations have one opcode. -/
theorem Operation.ofOpcode?_opcode {operation : Operation} (row : operation ∈ Operation.all) :
    Operation.ofOpcode? operation.opcode = some operation := by
  let Before (one other : Operation) : Prop := one.opcode < other.opcode
  have trans : Trans Before Before Before := ⟨UInt8.lt_trans⟩
  have increasing := List.isChain_iff_pairwise.mp Operation.opcodes_increase
  obtain ⟨before, after, split⟩ := List.append_of_mem row
  rw [split] at increasing
  have below := (List.pairwise_append.mp increasing).2.2
  rw [Operation.ofOpcode?, split, List.find?_append, List.find?_eq_none.mpr, Option.none_or]
  · simp only [List.find?_cons, beq_self_eq_true]
  intro other earlier same
  have less := below other earlier operation List.mem_cons_self
  rw [eq_of_beq same] at less
  exact UInt8.lt_irrefl _ less

/-- The row of an instruction has its name and its qualifier, and its opcode leads back to
the row. -/
theorem Instruction.operation?_eq_some {instruction : Instruction} {operation : Operation}
    (row : instruction.operation? = some operation) :
    operation.name = instruction.name ∧ operation.qualifier = instruction.qualifier ∧
      Operation.ofOpcode? operation.opcode = some operation := by
  unfold Instruction.operation? Operation.ofMnemonic? at row
  have same := List.find?_some row
  simp only [Bool.and_eq_true, beq_iff_eq] at same
  exact ⟨same.2, same.1, Operation.ofOpcode?_opcode (List.mem_of_find?_eq_some row)⟩

/-- The immediate of an instruction is read as what the row of its operation calls for. -/
theorem Instruction.readsBack_immediate {instruction : Instruction} {operation : Operation}
    {bytes : Bytes} (written : instruction.writeImmediate operation.shape? = .ok bytes) :
    operation.readImmediate.ReadsBack instruction.immediate bytes := by
  unfold Instruction.writeImmediate at written
  cases holds : instruction.immediate with
  | none =>
      simp only [holds] at written
      by_cases bare : operation.shape? = none
      · rw [if_pos bare] at written
        cases written
        simp only [Operation.readImmediate, bare]
        exact readsBack_pure none
      · rw [if_neg bare] at written
        cases written
  | some immediate =>
      simp only [holds] at written
      by_cases fits : operation.shape? = some immediate.shape
      · rw [if_pos fits] at written
        simp only [Operation.readImmediate, fits]
        exact (Immediate.readsBack written).map some
      · rw [if_neg fits] at written
        cases written

/-- An instruction is written as the opcode of its operation and then its immediate. -/
theorem Instruction.write_eq_ok {instruction : Instruction} {bytes : Bytes} :
    instruction.write = .ok bytes ↔ ∃ operation immediate,
      instruction.operation? = some operation ∧
        instruction.writeImmediate operation.shape? = .ok immediate ∧
        bytes = operation.opcode :: immediate := by
  unfold Instruction.write
  cases instruction.operation? with
  | none =>
      constructor
      · intro written
        cases written
      · rintro ⟨_, _, absurdly, _⟩
        cases absurdly
  | some operation =>
      simp only [Except.bind_eq_ok]
      constructor
      · rintro ⟨immediate, written, put⟩
        cases put
        exact ⟨operation, immediate, rfl, written, rfl⟩
      · rintro ⟨_, immediate, same, written, rfl⟩
        cases same
        exact ⟨immediate, written, rfl⟩

/-- An instruction that can be written is read as it was. -/
theorem Instruction.readsBack {instruction : Instruction} {bytes : Bytes}
    (written : instruction.write = .ok bytes) : Instruction.read.ReadsBack instruction bytes := by
  obtain ⟨operation, immediate, row, further, rfl⟩ := Instruction.write_eq_ok.mp written
  obtain ⟨name, qualifier, known⟩ := Instruction.operation?_eq_some row
  apply (readsBack_code known).bind
  have read := (Instruction.readsBack_immediate further).map
    (Instruction.mk operation.name operation.qualifier)
  have same : instruction = ⟨operation.name, operation.qualifier, instruction.immediate⟩ := by
    rw [name, qualifier]
  rwa [← same] at read

/-- An initializer is read up to the terminator behind it. -/
theorem readsBack_initializer {instruction : Instruction} {bytes : Bytes}
    (written : Writing.initializer instruction = .ok bytes) :
    initializer.ReadsBack instruction bytes := by
  obtain ⟨content, one, put⟩ := Except.bind_eq_ok.mp written
  cases put
  apply (Instruction.readsBack one).bind
  refine .ofOffset fun start => ?_
  apply (readsBack_byte endOpcode).last
  rw [if_pos rfl]
  exact readsBack_pure instruction

/-! ## Entries -/

/-- A counted list of types is read as it was. -/
theorem readsBack_valueTypes {what : String} {types : List ValueType} {bytes : Bytes}
    (written : Writing.counted what (fun type => pure [type.toByte]) types = .ok bytes) :
    (counted valueType).ReadsBack types bytes := by
  refine readsBack_counted (fun type _ bytes one => ?_) written
  cases one
  exact readsBack_valueType type

theorem readsBack_indices {what : String} {indices : List UInt32} {bytes : Bytes}
    (written : Writing.counted what (fun index => pure (uint32 index)) indices = .ok bytes) :
    (counted readUInt32).ReadsBack indices bytes := by
  refine readsBack_counted (fun index _ bytes one => ?_) written
  cases one
  exact readsBack_uint32 index

theorem Signature.readsBack {signature : Signature} {bytes : Bytes}
    (written : signature.write = .ok bytes) : Signature.read.ReadsBack signature bytes := by
  obtain ⟨params, listed, rest⟩ := Except.bind_eq_ok.mp written
  obtain ⟨returns, further, put⟩ := Except.bind_eq_ok.mp rest
  cases put
  apply (readsBack_valueType signature.form).bind
  exact (readsBack_valueTypes listed).bind
    ((readsBack_valueTypes further).map (Signature.mk signature.form signature.params))

/-- The flags say whether there is a maximum to be read. -/
theorem Limits.readsBack (limits : Limits) : Limits.read.ReadsBack limits limits.write := by
  obtain ⟨initial, maximum⟩ := limits
  refine .ofOffset fun start => ?_
  cases maximum with
  | none =>
      apply (readsBack_uint32 0).bind
      apply (readsBack_uint32 initial).last
      rw [if_pos rfl]
      exact readsBack_pure _
  | some maximum =>
      simp only [Limits.write, List.append_assoc]
      apply (readsBack_uint32 1).bind
      apply (readsBack_uint32 initial).bind
      rw [if_neg (by decide), if_pos rfl]
      exact (readsBack_uint32 maximum).map fun maximum => Limits.mk initial (some maximum)

theorem TableType.readsBack (type : TableType) : TableType.read.ReadsBack type type.write :=
  (readsBack_valueType type.element).bind
    ((Limits.readsBack type.limits).map (TableType.mk type.element))

/-- Each mutability has its own byte. -/
theorem mutabilityOfByte?_toByte (mutable : Bool) :
    mutabilityOfByte? (mutabilityToByte mutable) = some mutable := by
  cases mutable <;> rfl

theorem GlobalType.readsBack (type : GlobalType) : GlobalType.read.ReadsBack type type.write :=
  (readsBack_valueType type.content).bind
    ((readsBack_code (mutabilityOfByte?_toByte type.mutable)).map (GlobalType.mk type.content))

/-- What an import is of is read by its kind. -/
theorem ImportDescriptor.readsBack (descriptor : ImportDescriptor) :
    descriptor.kind.readDescriptor.ReadsBack descriptor descriptor.write := by
  cases descriptor with
  | function typeIndex => exact (readsBack_uint32 typeIndex).map ImportDescriptor.function
  | table type => exact (TableType.readsBack type).map ImportDescriptor.table
  | memory limits => exact (Limits.readsBack limits).map ImportDescriptor.memory
  | global type => exact (GlobalType.readsBack type).map ImportDescriptor.global

theorem readsBack_externalKind (kind : ExternalKind) :
    externalKind.ReadsBack kind [kind.toByte] :=
  readsBack_code (ExternalKind.ofByte?_toByte kind)

theorem ImportEntry.readsBack {entry : ImportEntry} {bytes : Bytes}
    (written : entry.write = .ok bytes) : ImportEntry.read.ReadsBack entry bytes := by
  obtain ⟨module, named, rest⟩ := Except.bind_eq_ok.mp written
  obtain ⟨field, further, put⟩ := Except.bind_eq_ok.mp rest
  cases put
  rw [List.append_assoc]
  apply (readsBack_name named).bind
  apply (readsBack_name further).bind
  apply (readsBack_externalKind entry.descriptor.kind).bind
  exact (ImportDescriptor.readsBack entry.descriptor).map (ImportEntry.mk entry.module entry.field)

theorem GlobalEntry.readsBack {entry : GlobalEntry} {bytes : Bytes}
    (written : entry.write = .ok bytes) : GlobalEntry.read.ReadsBack entry bytes := by
  obtain ⟨init, one, put⟩ := Except.bind_eq_ok.mp written
  cases put
  exact (GlobalType.readsBack entry.type).bind
    ((readsBack_initializer one).map (GlobalEntry.mk entry.type))

theorem ExportEntry.readsBack {entry : ExportEntry} {bytes : Bytes}
    (written : entry.write = .ok bytes) : ExportEntry.read.ReadsBack entry bytes := by
  obtain ⟨field, named, put⟩ := Except.bind_eq_ok.mp written
  cases put
  apply (readsBack_name named).bind
  apply (readsBack_externalKind entry.kind).bind
  exact (readsBack_uint32 entry.index).map (ExportEntry.mk entry.field entry.kind)

theorem ElementEntry.readsBack {entry : ElementEntry} {bytes : Bytes}
    (written : entry.write = .ok bytes) : ElementEntry.read.ReadsBack entry bytes := by
  obtain ⟨offset, one, rest⟩ := Except.bind_eq_ok.mp written
  obtain ⟨functions, listed, put⟩ := Except.bind_eq_ok.mp rest
  cases put
  rw [List.append_assoc]
  apply (readsBack_uint32 entry.table).bind
  apply (readsBack_initializer one).bind
  exact (readsBack_indices listed).map (ElementEntry.mk entry.table entry.offset)

theorem LocalGroup.readsBack (group : LocalGroup) : LocalGroup.read.ReadsBack group group.write :=
  (readsBack_uint32 group.count).bind
    ((readsBack_valueType group.type).map (LocalGroup.mk group.count))

/-- The first byte of an instruction is its opcode. -/
theorem Instruction.write_ne_nil {instruction : Instruction} {bytes : Bytes}
    (written : instruction.write = .ok bytes) : bytes ≠ [] := by
  obtain ⟨operation, immediate, _, _, rfl⟩ := Instruction.write_eq_ok.mp written
  exact List.cons_ne_nil operation.opcode immediate

/-- A body is read within its size, to the last instruction. -/
theorem FunctionBody.readsBack {body : FunctionBody} {bytes : Bytes}
    (written : body.write = .ok bytes) : FunctionBody.read.ReadsBack body bytes := by
  obtain ⟨locals, listed, rest⟩ := Except.bind_eq_ok.mp written
  obtain ⟨code, further, put⟩ := Except.bind_eq_ok.mp rest
  have localsRead : (counted LocalGroup.read).ReadsBack body.locals locals := by
    refine readsBack_counted (fun group _ bytes one => ?_) listed
    cases one
    exact LocalGroup.readsBack group
  have codeRead : (untilEmpty Instruction.read).ReadsAll body.code code := by
    refine readsAll_untilEmpty (fun instruction _ bytes one => ?_) further
    exact ⟨Instruction.readsBack one, Instruction.write_ne_nil one⟩
  have content : FunctionBody.readContent.ReadsAll body (locals ++ code) :=
    localsRead.bindAll (codeRead.map (FunctionBody.mk body.locals))
  refine readsBack_sized put fun size same => ?_
  rw [same]
  exact (readsBack_within content).last (readsBack_pure body)

theorem DataSegment.readsBack {segment : DataSegment} {bytes : Bytes}
    (written : segment.write = .ok bytes) : DataSegment.read.ReadsBack segment bytes := by
  obtain ⟨offset, one, rest⟩ := Except.bind_eq_ok.mp written
  obtain ⟨content, sized, put⟩ := Except.bind_eq_ok.mp rest
  cases put
  rw [List.append_assoc]
  apply (readsBack_uint32 segment.memory).bind
  apply (readsBack_initializer one).bind
  exact (readsBack_blob sized).map (DataSegment.mk segment.memory segment.offset)

/-! ## Debug names -/

theorem NameEntry.readsBack {entry : NameEntry} {bytes : Bytes}
    (written : entry.write = .ok bytes) : NameEntry.read.ReadsBack entry bytes := by
  obtain ⟨name, named, put⟩ := Except.bind_eq_ok.mp written
  cases put
  exact (readsBack_uint32 entry.index).bind ((readsBack_name named).map (NameEntry.mk entry.index))

theorem LocalNames.readsBack {group : LocalNames} {bytes : Bytes}
    (written : group.write = .ok bytes) : LocalNames.read.ReadsBack group bytes := by
  obtain ⟨names, listed, put⟩ := Except.bind_eq_ok.mp written
  cases put
  apply (readsBack_uint32 group.function).bind
  exact (readsBack_counted (fun _ _ _ one => NameEntry.readsBack one) listed).map
    (LocalNames.mk group.function)

namespace NameSubsection

/-- Only the bytes of an unknown kind are kept as they are. -/
def AsRead : NameSubsection → Prop
  | unknown kind _ => kind ≠ 0 ∧ kind ≠ 1 ∧ kind ≠ 2
  | _ => True

/-- A name subsection that is as it would be read uses up its payload. -/
theorem readsAll_payload {subsection : NameSubsection} (asRead : subsection.AsRead)
    {bytes : Bytes} (written : subsection.writePayload = .ok bytes) :
    (readPayload subsection.kind).ReadsAll subsection bytes := by
  cases subsection with
  | moduleName name => exact (readsBack_name written).all.map moduleName
  | functionNames names =>
      exact (readsBack_counted (fun _ _ _ one => NameEntry.readsBack one) written).all.map
        functionNames
  | localNames groups =>
      exact (readsBack_counted (fun _ _ _ one => LocalNames.readsBack one) written).all.map
        localNames
  | unknown kind payload =>
      cases written
      obtain ⟨notModule, notFunctions, notLocals⟩ := asRead
      rw [readPayload, NameSubsection.kind, if_neg notModule, if_neg notFunctions,
        if_neg notLocals]
      exact (readsAll_rest bytes).map (unknown kind)

/-- A name subsection that is as it would be read is read as it was. -/
theorem readsBack {subsection : NameSubsection} (asRead : subsection.AsRead) {bytes : Bytes}
    (written : subsection.write = .ok bytes) : read.ReadsBack subsection bytes := by
  obtain ⟨payload, one, rest⟩ := Except.bind_eq_ok.mp written
  obtain ⟨content, sized, put⟩ := Except.bind_eq_ok.mp rest
  cases put
  apply (readsBack_byte subsection.kind).bind
  refine readsBack_sized sized fun size same => ?_
  rw [same]
  exact readsBack_exactly (readsAll_payload asRead one)

/-- A name subsection has at least the byte of its kind. -/
theorem write_ne_nil {subsection : NameSubsection} {bytes : Bytes}
    (written : subsection.write = .ok bytes) : bytes ≠ [] := by
  obtain ⟨payload, _, rest⟩ := Except.bind_eq_ok.mp written
  obtain ⟨content, _, put⟩ := Except.bind_eq_ok.mp rest
  cases put
  exact List.cons_ne_nil _ _

end NameSubsection

/-! ## Sections and modules -/

namespace Section

/-- Debug names are taken apart exactly in the section that is called for them. -/
def AsRead : Section → Prop
  | custom name (.names subsections) =>
    name = nameSection ∧ ∀ subsection ∈ subsections, subsection.AsRead
  | custom name (.raw _) => name ≠ nameSection
  | _ => True

/-- A section that is as it would be read uses up its payload. -/
theorem readsAll_payload {content : Section} (asRead : content.AsRead) {bytes : Bytes}
    (written : content.writePayload = .ok bytes) :
    content.kind.readPayload.ReadsAll content bytes := by
  cases content with
  | custom name payload =>
      obtain ⟨head, named, rest⟩ := Except.bind_eq_ok.mp written
      obtain ⟨tail, further, put⟩ := Except.bind_eq_ok.mp rest
      cases put
      apply (readsBack_name named).bindAll
      cases payload with
      | raw content =>
          cases further
          rw [CustomPayload.read, if_neg asRead]
          exact ((readsAll_rest tail).map CustomPayload.raw).map (custom name)
      | names subsections =>
          obtain ⟨called, known⟩ := asRead
          rw [CustomPayload.read, if_pos called]
          have read : (untilEmpty NameSubsection.read).ReadsAll subsections tail :=
            readsAll_untilEmpty (fun subsection inside _ one =>
              ⟨NameSubsection.readsBack (known subsection inside) one,
                NameSubsection.write_ne_nil one⟩) further
          exact (read.map CustomPayload.names).map (custom name)
  | types entries =>
      exact (readsBack_counted (fun _ _ _ one => Signature.readsBack one) written).all.map types
  | imports entries =>
      exact (readsBack_counted (fun _ _ _ one => ImportEntry.readsBack one) written).all.map
        imports
  | functions typeIndices => exact (readsBack_indices written).all.map functions
  | tables entries =>
      refine (readsBack_counted (fun type _ bytes one => ?_) written).all.map tables
      cases one
      exact TableType.readsBack type
  | memories entries =>
      refine (readsBack_counted (fun limits _ bytes one => ?_) written).all.map memories
      cases one
      exact Limits.readsBack limits
  | globals entries =>
      exact (readsBack_counted (fun _ _ _ one => GlobalEntry.readsBack one) written).all.map
        globals
  | exports entries =>
      exact (readsBack_counted (fun _ _ _ one => ExportEntry.readsBack one) written).all.map
        exports
  | start index =>
      cases written
      exact (readsBack_uint32 index).all.map start
  | elements entries =>
      exact (readsBack_counted (fun _ _ _ one => ElementEntry.readsBack one) written).all.map
        elements
  | code bodies =>
      exact (readsBack_counted (fun _ _ _ one => FunctionBody.readsBack one) written).all.map code
  | data segments =>
      exact (readsBack_counted (fun _ _ _ one => DataSegment.readsBack one) written).all.map data
  | dataCount count =>
      cases written
      exact (readsBack_uint32 count).all.map dataCount

/-- Where a section starts is noted, so what is found depends on it. -/
theorem locatedSection_readsBack {content : Section} (asRead : content.AsRead) {bytes : Bytes}
    (written : content.write = .ok bytes) (offset : Nat) (following : Bytes) :
    ∃ size, LocatedSection.read ⟨offset, bytes ++ following⟩ =
      .ok ⟨offset, size, content⟩ ⟨offset + bytes.length, following⟩ := by
  obtain ⟨payload, one, rest⟩ := Except.bind_eq_ok.mp written
  obtain ⟨region, sized, put⟩ := Except.bind_eq_ok.mp rest
  cases put
  have read : (do
      let kind ← Reader.code SectionKind.ofByte? .unknownSection
      let size ← readUInt32
      let content ← exactly kind.name size.toNat (blaming kind.name size.toNat kind.readPayload)
      return ⟨offset, size.toNat, content⟩ : Reader LocatedSection).ReadsBack
      ⟨offset, payload.length, content⟩ (content.kind.toByte :: region) := by
    refine (readsBack_code (SectionKind.ofByte?_toByte content.kind)).bind ?_
    refine readsBack_sized sized fun size same => ?_
    rw [same]
    exact (readsBack_exactly (readsAll_blaming (readsAll_payload asRead one))).last
      (readsBack_pure _)
  exact ⟨payload.length, read offset following⟩

/-- A section that is as it would be read is read as it was. -/
theorem readsBack {content : Section} (asRead : content.AsRead) {bytes : Bytes}
    (written : content.write = .ok bytes) : read.ReadsBack content bytes := by
  intro offset following
  obtain ⟨size, located⟩ := locatedSection_readsBack asRead written offset following
  rw [read, bind_of_ok located, pure_apply]

/-- A section has at least the byte of its kind. -/
theorem write_ne_nil {content : Section} {bytes : Bytes}
    (written : content.write = .ok bytes) : bytes ≠ [] := by
  obtain ⟨payload, _, rest⟩ := Except.bind_eq_ok.mp written
  obtain ⟨region, _, put⟩ := Except.bind_eq_ok.mp rest
  cases put
  exact List.cons_ne_nil _ _

end Section

/-- A module as it is read from a file: debug names are taken apart where they stand, and
nowhere else. -/
def Module.AsRead (m : Module) : Prop := ∀ content ∈ m.sections, content.AsRead

theorem Preamble.readsBack (preamble : Preamble) : read.ReadsBack preamble preamble.write :=
  (readsBack_word32 preamble.magic).bind
    ((readsBack_word32 preamble.version).map (Preamble.mk preamble.magic))

namespace Module

/-- The file of a module that is as it would be read is read to its end. -/
theorem readsAll_encode {m : Module} (asRead : m.AsRead) {bytes : Bytes}
    (written : m.encode = .ok bytes) : read.ReadsAll m bytes := by
  obtain ⟨sections, listed, put⟩ := Except.bind_eq_ok.mp written
  cases put
  apply (Preamble.readsBack m.preamble).bindAll
  have sectionsRead : (untilEmpty Section.read).ReadsAll m.sections sections :=
    readsAll_untilEmpty (fun content inside _ one =>
      ⟨Section.readsBack (asRead content inside) one, Section.write_ne_nil one⟩) listed
  exact sectionsRead.map (Module.mk m.preamble)

/-- A module that is as it would be read is what its own file decodes to. -/
theorem decode_of_encode {m : Module} (asRead : m.AsRead) {bytes : Bytes}
    (written : m.encode = .ok bytes) : decode bytes = .ok m := by
  rw [decode, Reader.value, Cursor.ofBytes, readsAll_encode asRead written 0]

/-- **Reading undoes writing.** Hence a module shares its file with no other one. -/
theorem decode_encode {m : Module} (asRead : m.AsRead) {bytes : Bytes}
    (written : m.encode = .ok bytes) :
    decode bytes = .ok m ∧
      ∀ other : Module, other.AsRead → other.encode = .ok bytes → other = m := by
  have decoded := decode_of_encode asRead written
  refine ⟨decoded, fun other otherAsRead otherWritten => ?_⟩
  rw [decode_of_encode otherAsRead otherWritten] at decoded
  exact Except.ok.inj decoded

/-- A module with debug names, of which one kind is unknown, and a jump table. -/
def named : Module where
  sections := [.types [⟨.func, [.i32], []⟩], .functions [0],
    .code [⟨[⟨2, .i64⟩], [⟨"get", some .local, some (.index 0)⟩,
      ⟨"br_table", none, some (.branchTable [0, 0] 0)⟩, ⟨"end", none, none⟩]⟩],
    .custom nameSection (.names [.moduleName "m", .localNames [⟨0, [⟨1, "x"⟩]⟩], .unknown 3 [7]]),
    .custom "notes" (.raw [1, 2])]

/-- A module with debug names, which no other module shares its file with. -/
theorem decode_encode_named :
    named.AsRead ∧ ∃ bytes, named.encode = .ok bytes ∧ decode bytes = .ok named ∧
      ∀ other : Module, other.AsRead → other.encode = .ok bytes → other = named := by
  have asRead : named.AsRead := by
    simp [AsRead, named, Section.AsRead, NameSubsection.AsRead, nameSection]
  have written : named.encode = .ok [0, 97, 115, 109, 1, 0, 0, 0, 1, 5, 1, 96, 1, 127, 0, 3, 2, 1,
      0, 10, 13, 1, 11, 1, 2, 126, 32, 0, 14, 2, 0, 0, 0, 11, 0, 20, 4, 110, 97, 109, 101, 0, 2, 1,
      109, 2, 6, 1, 0, 1, 1, 1, 120, 3, 1, 7, 0, 8, 5, 110, 111, 116, 101, 115, 1, 2] := by
    decide +kernel
  exact ⟨asRead, _, written, decode_encode asRead written⟩

end Module

end WasmGas

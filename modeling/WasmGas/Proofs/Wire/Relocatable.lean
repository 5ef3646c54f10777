import WasmGas.Proofs.Wire.Numbers
import WasmGas.Proofs.Wire.ReadPast

/-! # Readers that can be moved

A reader knows its place in the file and uses it for one thing only: to tell where a fault lies.
This is seen from how it is put together (`Reader.Relocatable`). Besides reads and numbers there is
one step in which the place matters: something is read and then judged, and the fault is told with
the place where it began (`Reader.judging`). Whoever judges has to know two things
(`Reader.Blames`): the file shows at this place what is found fault with
(`DecodeError.ShownIn`), and at another place the fault would be the same but for the place
(`DecodeError.move`). Every reader of a section is relocatable, up to `Section.relocatable`.
-/

namespace WasmGas

open Leb128

/-! ## Files and faults -/

/-- The bytes of a cursor stand in a file where the cursor says. -/
structure Cursor.LiesIn (cursor : Cursor) (file : Bytes) : Prop where
  inside : cursor.offset ≤ file.length
  rest : cursor.rest <+: file.drop cursor.offset

/-- At most five groups that stand for a number, from some offset of a file on. -/
structure Leb128.StandAt (file : Bytes) (offset : Nat) (groups : Bytes) (n : Nat) : Prop where
  complete : Groups groups
  few : groups.length ≤ 5
  there : groups <+: file.drop offset
  value : unsigned groups = n

namespace DecodeError

/-- A file has at the offset of a fault what the fault says. -/
def ShownIn (file : Bytes) : DecodeError → Prop
  | truncated offset needed => offset ≤ file.length ∧ 1 ≤ needed
  | sizeMismatch _ declared consumed => consumed ≠ declared
  | unknownOpcode opcode offset =>
    file[offset]? = some opcode ∧ ∀ operation ∈ Operation.all, operation.opcode ≠ opcode
  | unknownSection id offset => file[offset]? = some id ∧ ∀ kind : SectionKind, kind.toByte ≠ id
  | unknownValueType byte offset =>
    file[offset]? = some byte ∧ ∀ type : ValueType, type.toByte ≠ byte
  | unknownExternalKind byte offset =>
    file[offset]? = some byte ∧ ∀ kind : ExternalKind, kind.toByte ≠ byte
  | unsupportedLimits flags offset =>
    2 ≤ flags.toNat ∧ ∃ groups, StandAt file offset groups flags.toNat
  | invalidMutability byte offset =>
    file[offset]? = some byte ∧ ∀ mutable, mutabilityToByte mutable ≠ byte
  | unterminatedInitializer offset => ∃ byte, file[offset]? = some byte ∧ byte ≠ 0x0b
  | varintOverflow offset =>
    offset + 5 ≤ file.length ∧ ∀ group ∈ (file.drop offset).take 4, isLast group = false
  | invalidUtf8 offset =>
    ∃ groups bytes, StandAt file offset groups bytes.length ∧
      bytes <+: file.drop (offset + groups.length) ∧ ¬ bytes.toByteArray.IsValidUTF8

/-- The same fault further on in a file. -/
def move (distance : Nat) : DecodeError → DecodeError
  | truncated offset needed => truncated (offset + distance) needed
  | sizeMismatch region declared consumed => sizeMismatch region declared consumed
  | unknownOpcode opcode offset => unknownOpcode opcode (offset + distance)
  | unknownSection id offset => unknownSection id (offset + distance)
  | unknownValueType byte offset => unknownValueType byte (offset + distance)
  | unknownExternalKind byte offset => unknownExternalKind byte (offset + distance)
  | unsupportedLimits flags offset => unsupportedLimits flags (offset + distance)
  | invalidMutability byte offset => invalidMutability byte (offset + distance)
  | unterminatedInitializer offset => unterminatedInitializer (offset + distance)
  | varintOverflow offset => varintOverflow (offset + distance)
  | invalidUtf8 offset => invalidUtf8 (offset + distance)

end DecodeError

/-- What is left after some bytes lies in the file as well. -/
theorem Cursor.LiesIn.advance {cursor after : Cursor} {file used : Bytes}
    (lies : cursor.LiesIn file) (advances : cursor.Advances used after) : after.LiesIn file := by
  obtain ⟨inside, rest⟩ := lies
  rw [advances.rest] at rest
  have long := rest.length_le
  rw [List.length_append, List.length_drop] at long
  refine ⟨?_, ?_⟩
  · rw [advances.offset]
    omega
  · obtain ⟨following, whole⟩ := rest
    have behind := congrArg (List.drop used.length) whole
    rw [List.append_assoc, List.drop_left, List.drop_drop, ← advances.offset] at behind
    exact ⟨following, behind⟩

/-- The next bytes of a cursor stand in the file. -/
theorem Cursor.LiesIn.front {cursor after : Cursor} {file used : Bytes}
    (lies : cursor.LiesIn file) (advances : cursor.Advances used after) :
    used <+: file.drop cursor.offset :=
  (List.prefix_append used after.rest).trans (advances.rest ▸ lies.rest)

/-- A byte that is read stands in the file. -/
theorem Cursor.LiesIn.getElem?_of_byte {cursor after : Cursor} {file : Bytes} {head : UInt8}
    (lies : cursor.LiesIn file) (read : Reader.byte cursor = .ok head after) :
    file[cursor.offset]? = some head := by
  obtain ⟨start, bytes⟩ := cursor
  cases bytes with
  | nil => cases read
  | cons first others =>
      cases read
      obtain ⟨following, whole⟩ := lies.rest
      have found := congrArg List.head? whole
      rwa [List.cons_append, List.head?_cons, List.head?_drop, eq_comm] at found

/-- An unsigned number uses up at most five groups, and it is what they say. -/
theorem Leb128.advances_of_readUInt32 {cursor after : Cursor} {n : UInt32}
    (read : readUInt32 cursor = .ok n after) : ∃ groups, Groups groups ∧ groups.length ≤ 5 ∧
      unsigned groups = n.toNat ∧ cursor.Advances groups after := by
  obtain ⟨start, _, located, read⟩ := Reader.bind_eq_ok.mp read
  cases located
  obtain ⟨groups, between, found, checked⟩ := Reader.bind_eq_ok.mp read
  obtain ⟨complete, few, split, moved⟩ := groups_of_readGroups found
  by_cases small : toNat groups < UInt32.size
  · simp only [small, ↓reduceIte] at checked
    cases checked
    refine ⟨groups, complete, few, ?_, split, moved⟩
    rw [UInt32.toNat_ofNat_of_lt' small, toNat_eq_unsigned]
  · simp only [small, ↓reduceIte] at checked
    cases checked

namespace Reader

variable {α β : Type}

/-- Reads something and judges it. What is found fault with began where the reader does. -/
def judging (first : Reader α) (accept? : α → Option β) (fault : α → Nat → DecodeError) :
    Reader β := do
  let start ← offset
  let a ← first
  match accept? a with
  | some b => return b
  | none => throw (fault a start)

/-- A value that is accepted is read. -/
theorem judging_of_some {first : Reader α} {accept? : α → Option β} {fault : α → Nat → DecodeError}
    {cursor after : Cursor} {a : α} {b : β} (found : first cursor = .ok a after)
    (accepted : accept? a = some b) : judging first accept? fault cursor = .ok b after := by
  have located : Reader.offset cursor = .ok cursor.offset cursor := rfl
  rw [judging, bind_of_ok located, bind_of_ok found, accepted]
  rfl

/-- A value that is refused is a fault at its start. -/
theorem judging_of_none {first : Reader α} {accept? : α → Option β} {fault : α → Nat → DecodeError}
    {cursor after : Cursor} {a : α} (found : first cursor = .ok a after)
    (refused : accept? a = none) :
    judging first accept? fault cursor = .error (fault a cursor.offset) after := by
  have located : Reader.offset cursor = .ok cursor.offset cursor := rfl
  rw [judging, bind_of_ok located, bind_of_ok found, refused]
  rfl

/-- What cannot be read is not judged. -/
theorem judging_of_error {first : Reader α} {accept? : α → Option β}
    {fault : α → Nat → DecodeError} {cursor left : Cursor} {other : DecodeError}
    (failed : first cursor = .error other left) :
    judging first accept? fault cursor = .error other left := by
  have located : Reader.offset cursor = .ok cursor.offset cursor := rfl
  rw [judging, bind_of_ok located, bind_of_error failed]

/-- What a judge has to know about the faults that are told. -/
structure Blames (first : Reader α) (accept? : α → Option β) (fault : α → Nat → DecodeError) :
    Prop where
  shown : ∀ {file : Bytes} {cursor after : Cursor} {a : α}, cursor.LiesIn file →
    first cursor = .ok a after → accept? a = none → (fault a cursor.offset).ShownIn file
  moves : ∀ (a : α) (start distance : Nat),
    fault a (start + distance) = (fault a start).move distance

/-- A reader that uses its place only to tell where a fault lies. -/
inductive Relocatable : {α : Type} → Reader α → Prop where
  | pure {α : Type} (a : α) : Relocatable (Pure.pure a : Reader α)
  | bind {α β : Type} {first : Reader α} {next : α → Reader β} (one : Relocatable first)
      (other : ∀ a, Relocatable (next a)) : Relocatable (first >>= next)
  | byte : Relocatable Reader.byte
  | take (count : Nat) : Relocatable (Reader.take count)
  | rest : Relocatable Reader.rest
  | uint32 : Relocatable readUInt32
  | int32 : Relocatable readInt32
  | int64 : Relocatable readInt64
  | judging {α β : Type} {first : Reader α} {accept? : α → Option β}
      {fault : α → Nat → DecodeError} (one : Relocatable first)
      (blames : Blames first accept? fault) : Relocatable (Reader.judging first accept? fault)
  | untilEmpty {α : Type} {entry : Reader α} (each : Relocatable entry) :
      Relocatable (Reader.untilEmpty entry)
  | within {α : Type} {inner : Reader α} (size : Nat) (relocatable : Relocatable inner) :
      Relocatable (Reader.within size inner)
  | blaming {α : Type} {inner : Reader α} (region : String) (size : Nat)
      (relocatable : Relocatable inner) : Relocatable (Reader.blaming region size inner)

namespace Relocatable

/-- What a relocatable reader reads is told by a script. -/
theorem script {reader : Reader α} (relocatable : Relocatable reader) :
    Nonempty (Script reader) := by
  induction relocatable with
  | pure a => exact ⟨.pure a⟩
  | bind _ _ one other => exact ⟨.bind one.some fun a => (other a).some⟩
  | byte => exact ⟨.byte⟩
  | take count => exact ⟨.take count⟩
  | rest => exact ⟨.rest⟩
  | uint32 => exact ⟨.uint32⟩
  | int32 => exact ⟨.int32⟩
  | int64 => exact ⟨.int64⟩
  | @judging _ _ _ accept? fault _ _ one =>
      refine ⟨.bind .offset fun start => .bind one.some fun a => ?_⟩
      exact match accept? a with
        | some b => .pure b
        | none => .throw (fault a start)
  | untilEmpty _ each => exact ⟨.untilEmpty each.some⟩
  | within size _ inner => exact ⟨.within size inner.some⟩
  | blaming region size _ inner => exact ⟨.blaming region size inner.some⟩

/-- What a reader has read it has used up from the front. -/
theorem advances {reader : Reader α} (relocatable : Relocatable reader) {cursor after : Cursor}
    {a : α} (read : reader cursor = .ok a after) : ∃ used, cursor.Advances used after :=
  relocatable.script.some.reports.advances read

/-! ## Frames -/

theorem map {reader : Reader α} (relocatable : Relocatable reader) (f : α → β) :
    Relocatable (reader >>= fun a => Pure.pure (f a)) :=
  relocatable.bind fun a => .pure (f a)

theorem ite {p : Prop} [Decidable p] {one other : Reader α} (first : Relocatable one)
    (second : Relocatable other) : Relocatable (if p then one else other) := by
  by_cases holds : p
  · rwa [if_pos holds]
  · rwa [if_neg holds]

/-- What was read may be judged in any other words. -/
theorem judges {first : Reader α} {accept? : α → Option β} {fault : α → Nat → DecodeError}
    {verdict : Nat → α → Reader β} (one : Relocatable first) (blames : Blames first accept? fault)
    (same : ∀ start a, verdict start a =
      match accept? a with
      | some b => Pure.pure b
      | none => MonadExcept.throw (fault a start)) :
    Relocatable (Reader.offset >>= fun start => first >>= verdict start) := by
  have judging : (Reader.offset >>= fun start => first >>= verdict start) =
      Reader.judging first accept? fault :=
    congrArg (Reader.offset >>= ·) <| funext fun start =>
      congrArg (first >>= ·) (funext (same start))
  rw [judging]
  exact one.judging blames

/-- A byte that is no code is a fault if the file shows it. -/
theorem code {ofByte? : UInt8 → Option α} {fault : UInt8 → Nat → DecodeError}
    (shown : ∀ {file : Bytes} {head : UInt8} {start : Nat}, file[start]? = some head →
      ofByte? head = none → (fault head start).ShownIn file)
    (moves : ∀ (head : UInt8) (start distance : Nat),
      fault head (start + distance) = (fault head start).move distance) :
    Relocatable (Reader.code ofByte? fault) := by
  have blames : Blames Reader.byte ofByte? fault :=
    ⟨fun lies read unknown => shown (lies.getElem?_of_byte read) unknown, moves⟩
  exact Relocatable.byte.judging blames

theorem repeated {entry : Reader α} (each : Relocatable entry) (count : Nat) :
    Relocatable (Reader.repeated entry count) := by
  induction count with
  | zero => exact .pure []
  | succ count others => exact each.bind fun head => others.map (head :: ·)

theorem counted {entry : Reader α} (each : Relocatable entry) :
    Relocatable (Reader.counted entry) :=
  Relocatable.uint32.bind fun count => each.repeated count.toNat

theorem blob : Relocatable Reader.blob :=
  Relocatable.uint32.bind fun length => .take length.toNat

theorem name : Relocatable Reader.name := by
  have blames : Blames Reader.blob (fun bytes => String.fromUTF8? bytes.toByteArray)
      fun _ start => .invalidUtf8 start := by
    refine ⟨?_, fun _ _ _ => rfl⟩
    intro file cursor after bytes lies read invalid
    obtain ⟨length, between, counted, taken⟩ := bind_eq_ok.mp read
    obtain ⟨groups, complete, few, value, advances⟩ := advances_of_readUInt32 counted
    obtain ⟨enough, rfl, rfl⟩ := Script.take_eq_ok.mp taken
    have long := List.length_take_of_le enough
    refine ⟨groups, _, ⟨complete, few, lies.front advances, value.trans long.symm⟩, ?_, ?_⟩
    · rw [← advances.offset]
      exact (lies.advance advances).front (Script.advances_take enough)
    · intro valid
      rw [String.fromUTF8?, dif_pos valid] at invalid
      cases invalid
  refine blob.judges blames fun start bytes => ?_
  cases String.fromUTF8? bytes.toByteArray <;> rfl

/-- A region that must be used up can be read elsewhere. -/
theorem exactly (region : String) (size : Nat) {inner : Reader α}
    (relocatable : Relocatable inner) : Relocatable (Reader.exactly region size inner) := by
  have blames : Blames (Reader.within size inner)
      (fun found => if found.2 = size then some found.1 else none)
      fun found _ => .sizeMismatch region size found.2 := by
    refine ⟨fun _ _ refused => ?_, fun _ _ _ => rfl⟩
    intro same
    rw [if_pos same] at refused
    cases refused
  have unplaced : Reader.exactly region size inner = Reader.offset >>= fun _ =>
      Reader.within size inner >>= fun found =>
        if found.2 = size then Pure.pure found.1
        else MonadExcept.throw (.sizeMismatch region size found.2) := rfl
  rw [unplaced]
  refine (relocatable.within size).judges blames fun _ found => ?_
  by_cases whole : found.2 = size
  · rw [if_pos whole, if_pos whole]
  · rw [if_neg whole, if_neg whole]

theorem word32 : Relocatable Reader.word32 := (Relocatable.take 4).map _

theorem word64 : Relocatable Reader.word64 := (Relocatable.take 8).map _

theorem valueType : Relocatable Reader.valueType := by
  refine code (fun there unknown => ⟨there, ?_⟩) fun _ _ _ => rfl
  rintro type rfl
  rw [ValueType.ofByte?_toByte] at unknown
  cases unknown

theorem externalKind : Relocatable Reader.externalKind := by
  refine code (fun there unknown => ⟨there, ?_⟩) fun _ _ _ => rfl
  rintro kind rfl
  rw [ExternalKind.ofByte?_toByte] at unknown
  cases unknown

end Relocatable

end Reader

open Reader

/-! ## Instructions -/

/-- An immediate can be read elsewhere, whatever its shape. -/
theorem ImmediateShape.relocatable (shape : ImmediateShape) : Relocatable shape.read := by
  cases shape with
  | byte => exact Relocatable.byte.map _
  | index => exact Relocatable.uint32.map _
  | int32 => exact Relocatable.int32.map _
  | int64 => exact Relocatable.int64.map _
  | float32 => exact Relocatable.word32.map _
  | float64 => exact Relocatable.word64.map _
  | blockType => exact Relocatable.valueType.map _
  | branchTable => exact Relocatable.uint32.counted.bind fun _ => Relocatable.uint32.map _
  | callIndirect => exact Relocatable.uint32.bind fun _ => Relocatable.byte.map _
  | memory => exact Relocatable.uint32.bind fun _ => Relocatable.uint32.map _

theorem Operation.relocatable_immediate (operation : Operation) :
    Relocatable operation.readImmediate := by
  unfold readImmediate
  cases operation.shape? with
  | none => exact .pure none
  | some shape => exact shape.relocatable.map _

theorem Instruction.relocatable : Relocatable Instruction.read := by
  have opcode : Relocatable (Reader.code Operation.ofOpcode? .unknownOpcode) := by
    refine .code (fun there unknown => ⟨there, ?_⟩) fun _ _ _ => rfl
    intro operation row same
    exact List.find?_eq_none.mp unknown operation row (beq_iff_eq.mpr same)
  exact opcode.bind fun operation => operation.relocatable_immediate.map _

/-- What stands behind the one instruction of an initializer is judged like a code. -/
theorem Reader.Relocatable.initializer : Relocatable Reader.initializer := by
  have blames (instruction : Instruction) : Blames Reader.byte
      (fun closing => if closing = endOpcode then some instruction else none)
      fun _ start => .unterminatedInitializer start := by
    refine ⟨fun {_ _ _ closing} lies read goesOn => ?_, fun _ _ _ => rfl⟩
    refine ⟨closing, lies.getElem?_of_byte read, fun closes => ?_⟩
    rw [if_pos (show closing = endOpcode from closes)] at goesOn
    cases goesOn
  refine Instruction.relocatable.bind fun instruction => ?_
  refine Relocatable.byte.judges (blames instruction) fun start closing => ?_
  by_cases closes : closing = endOpcode
  · rw [if_pos closes, if_pos closes]
  · rw [if_neg closes, if_neg closes]

/-! ## Entries -/

theorem Signature.relocatable : Relocatable Signature.read :=
  Relocatable.valueType.bind fun _ => Relocatable.valueType.counted.bind fun _ =>
    Relocatable.valueType.counted.map _

/-- Flags are found fault with only after the initial size was read. -/
theorem Limits.relocatable : Relocatable Limits.read := by
  let flagged : Reader (UInt32 × UInt32) := do return (← readUInt32, ← readUInt32)
  let known? (found : UInt32 × UInt32) : Option (UInt32 × UInt32) :=
    if found.1 = 0 ∨ found.1 = 1 then some found else none
  let bounds (found : UInt32 × UInt32) : Reader Limits :=
    if found.1 = 0 then pure ⟨found.2, none⟩
    else do return ⟨found.2, some (← readUInt32)⟩
  have blames : Blames flagged known? fun found start => .unsupportedLimits found.1 start := by
    refine ⟨fun {file cursor after found} lies read unknown => ?_, fun _ _ _ => rfl⟩
    obtain ⟨flags, between, first, rest⟩ := bind_eq_ok.mp read
    obtain ⟨initial, last, second, put⟩ := bind_eq_ok.mp rest
    cases put
    obtain ⟨groups, complete, few, value, advances⟩ := advances_of_readUInt32 first
    refine ⟨?_, groups, complete, few, lies.front advances, value⟩
    have other : ¬ (flags = 0 ∨ flags = 1) := by
      intro either
      change (if flags = 0 ∨ flags = 1 then some (flags, initial) else none) = none at unknown
      rw [if_pos either] at unknown
      cases unknown
    rw [not_or, ← UInt32.toNat_inj, ← UInt32.toNat_inj, UInt32.toNat_zero,
      UInt32.toNat_one] at other
    change 2 ≤ flags.toNat
    omega
  have same : Limits.read = judging flagged known? (fun found start =>
      .unsupportedLimits found.1 start) >>= bounds := by
    simp only [Limits.read, judging, flagged, bind_assoc, pure_bind]
    refine congrArg (offset >>= ·) (funext fun start => congrArg (readUInt32 >>= ·)
      (funext fun flags => congrArg (readUInt32 >>= ·) (funext fun initial => ?_)))
    by_cases unbounded : flags = 0
    · simp only [unbounded, known?, bounds, true_or, ↓reduceIte, pure_bind]
    · by_cases bounded : flags = 1
      · simp [bounded, known?, bounds]
      · simp only [unbounded, bounded, known?, or_self, ↓reduceIte]
        rfl
  rw [same]
  refine Relocatable.bind (.judging ?_ blames) fun found => ?_
  · exact Relocatable.uint32.bind fun _ => Relocatable.uint32.map _
  · exact .ite (.pure _) (Relocatable.uint32.map _)

theorem TableType.relocatable : Relocatable TableType.read :=
  Relocatable.valueType.bind fun _ => Limits.relocatable.map _

theorem GlobalType.relocatable : Relocatable GlobalType.read := by
  have mutability : Relocatable (Reader.code mutabilityOfByte? .invalidMutability) := by
    refine .code (fun there unknown => ⟨there, ?_⟩) fun _ _ _ => rfl
    rintro mutable rfl
    cases mutable <;> cases unknown
  exact Relocatable.valueType.bind fun _ => mutability.map _

theorem ExternalKind.relocatable_descriptor (kind : ExternalKind) :
    Relocatable kind.readDescriptor := by
  cases kind with
  | function => exact Relocatable.uint32.map _
  | table => exact TableType.relocatable.map _
  | memory => exact Limits.relocatable.map _
  | global => exact GlobalType.relocatable.map _

theorem ImportEntry.relocatable : Relocatable ImportEntry.read :=
  Relocatable.name.bind fun _ => Relocatable.name.bind fun _ =>
    Relocatable.externalKind.bind fun kind => kind.relocatable_descriptor.map _

theorem GlobalEntry.relocatable : Relocatable GlobalEntry.read :=
  GlobalType.relocatable.bind fun _ => Relocatable.initializer.map _

theorem ExportEntry.relocatable : Relocatable ExportEntry.read :=
  Relocatable.name.bind fun _ => Relocatable.externalKind.bind fun _ => Relocatable.uint32.map _

theorem ElementEntry.relocatable : Relocatable ElementEntry.read :=
  Relocatable.uint32.bind fun _ => Relocatable.initializer.bind fun _ =>
    Relocatable.uint32.counted.map _

theorem LocalGroup.relocatable : Relocatable LocalGroup.read :=
  Relocatable.uint32.bind fun _ => Relocatable.valueType.map _

theorem FunctionBody.relocatable : Relocatable FunctionBody.read := by
  have content : Relocatable FunctionBody.readContent :=
    LocalGroup.relocatable.counted.bind fun _ => Instruction.relocatable.untilEmpty.map _
  exact Relocatable.uint32.bind fun size => (content.within size.toNat).map _

theorem DataSegment.relocatable : Relocatable DataSegment.read :=
  Relocatable.uint32.bind fun _ => Relocatable.initializer.bind fun _ => Relocatable.blob.map _

/-! ## Debug names -/

theorem NameEntry.relocatable : Relocatable NameEntry.read :=
  Relocatable.uint32.bind fun _ => Relocatable.name.map _

theorem LocalNames.relocatable : Relocatable LocalNames.read :=
  Relocatable.uint32.bind fun _ => NameEntry.relocatable.counted.map _

theorem NameSubsection.relocatable : Relocatable NameSubsection.read := by
  have payload (kind : UInt8) : Relocatable (NameSubsection.readPayload kind) :=
    .ite (Relocatable.name.map _) <| .ite (NameEntry.relocatable.counted.map _) <|
      .ite (LocalNames.relocatable.counted.map _) (Relocatable.rest.map _)
  exact Relocatable.byte.bind fun kind => Relocatable.uint32.bind fun size =>
    (payload kind).exactly nameSection size.toNat

theorem CustomPayload.relocatable (name : String) : Relocatable (CustomPayload.read name) :=
  .ite (NameSubsection.relocatable.untilEmpty.map _) (Relocatable.rest.map _)

/-! ## Sections -/

/-- A payload can be read elsewhere, whatever its kind. -/
theorem SectionKind.relocatable (kind : SectionKind) : Relocatable kind.readPayload := by
  cases kind with
  | custom => exact Relocatable.name.bind fun name => (CustomPayload.relocatable name).map _
  | types => exact Signature.relocatable.counted.map _
  | imports => exact ImportEntry.relocatable.counted.map _
  | functions => exact Relocatable.uint32.counted.map _
  | tables => exact TableType.relocatable.counted.map _
  | memories => exact Limits.relocatable.counted.map _
  | globals => exact GlobalEntry.relocatable.counted.map _
  | exports => exact ExportEntry.relocatable.counted.map _
  | start => exact Relocatable.uint32.map _
  | elements => exact ElementEntry.relocatable.counted.map _
  | code => exact FunctionBody.relocatable.counted.map _
  | data => exact DataSegment.relocatable.counted.map _
  | dataCount => exact Relocatable.uint32.map _

/-- The kind and size of a section can be read elsewhere. -/
theorem LocatedSection.relocatable_header : Relocatable LocatedSection.header := by
  have kind : Relocatable (Reader.code SectionKind.ofByte? .unknownSection) := by
    refine .code (fun there unknown => ⟨there, ?_⟩) fun _ _ _ => rfl
    rintro kind rfl
    rw [SectionKind.ofByte?_toByte] at unknown
    cases unknown
  exact kind.bind fun _ => Relocatable.uint32.map _

/-- Where a section starts is noted, but this is no part of the section. -/
theorem Section.read_eq : Section.read = LocatedSection.header >>= fun found =>
    Reader.exactly found.1.name found.2.toNat
      (Reader.blaming found.1.name found.2.toNat found.1.readPayload) := by
  simp only [Section.read, LocatedSection.read, LocatedSection.header, bind_assoc, pure_bind,
    bind_pure]
  rfl

/-- A section can be read elsewhere. -/
theorem Section.relocatable : Relocatable Section.read := by
  rw [read_eq]
  exact LocatedSection.relocatable_header.bind fun found =>
    (found.1.relocatable.blaming found.1.name found.2.toNat).exactly _ _

theorem Preamble.relocatable : Relocatable Preamble.read :=
  Relocatable.word32.bind fun _ => Relocatable.word32.map _

/-- A module can be read elsewhere. -/
theorem Module.relocatable : Relocatable Module.read :=
  Preamble.relocatable.bind fun _ => Section.relocatable.untilEmpty.map _

end WasmGas

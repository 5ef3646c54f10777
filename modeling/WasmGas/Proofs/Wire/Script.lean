import WasmGas.Wire.Module

/-! # What a reader reads

A reader is a function and does not show which reads it makes. A script of a reader
(`Reader.Script`) tells how it is put together from single reads, and is a script of that very
reader by its type. Every reader of a module has one, up to `Module.script`. From it follow,
for any file, the numbers that are read from it, each with the groups that stand for it
there (`Reader.Script.fields`).
-/

namespace WasmGas

open Leb128

/-- A number as it is read: its type and its value. -/
inductive Number where
  | uint32 (value : UInt32)
  | int32 (value : Int32)
  | int64 (value : Int64)
  deriving DecidableEq, Repr

/-- The groups that are written for a number. -/
def Number.write : Number → Bytes
  | uint32 value => WasmGas.uint32 value
  | int32 value => WasmGas.int32 value
  | int64 value => WasmGas.int64 value

/-- A number that was read and the groups that stood for it. -/
structure NumberField where
  number : Number
  groups : Bytes
  deriving DecidableEq, Repr

/-- Whether the groups are those that are written for the number. -/
def NumberField.AsWritten (field : NumberField) : Prop := field.groups = field.number.write

instance (field : NumberField) : Decidable field.AsWritten :=
  inferInstanceAs (Decidable (field.groups = field.number.write))

namespace Reader

/-- How a reader is put together. Numbers count as single reads. -/
inductive Script : {α : Type} → Reader α → Type 1 where
  | pure {α : Type} (a : α) : Script (Pure.pure a : Reader α)
  | throw {α : Type} (fault : DecodeError) : Script (MonadExcept.throw fault : Reader α)
  | bind {α β : Type} {first : Reader α} {next : α → Reader β} (one : Script first)
      (other : (a : α) → Script (next a)) : Script (first >>= next)
  | offset : Script Reader.offset
  | byte : Script Reader.byte
  | take (count : Nat) : Script (Reader.take count)
  | rest : Script Reader.rest
  | uint32 : Script readUInt32
  | int32 : Script readInt32
  | int64 : Script readInt64
  | untilEmpty {α : Type} {entry : Reader α} (script : Script entry) :
      Script (Reader.untilEmpty entry)
  | within {α : Type} {inner : Reader α} (size : Nat) (script : Script inner) :
      Script (Reader.within size inner)
  | blaming {α : Type} {inner : Reader α} (region : String) (size : Nat) (script : Script inner) :
      Script (Reader.blaming region size inner)

/-- The field that a number reader takes off a cursor, if it finds a number there. -/
def numberField {α : Type} (reader : Reader α) (number : α → Number) (cursor : Cursor) :
    List NumberField :=
  match reader cursor with
  | .ok a after => [⟨number a, cursor.rest.take (after.offset - cursor.offset)⟩]
  | .error _ _ => []

/-- What is listed for entries that are read until nothing is left. -/
def listUntilEmpty {α γ : Type} (entry : Reader α) (list : Cursor → List γ) :
    (limit : Nat) → Cursor → List γ
  | 0, _ => []
  | limit + 1, cursor =>
    if cursor.rest.isEmpty then []
    else
      list cursor ++
        match entry cursor with
        | .ok _ after => listUntilEmpty entry list limit after
        | .error _ _ => []

namespace Script

/-- The numbers that are read from a cursor, in the order of the reads, up to the first
read that fails. -/
def fields : {α : Type} → {reader : Reader α} → Script reader → Cursor → List NumberField
  | _, _, pure _, _ => []
  | _, _, throw _, _ => []
  | _, _, @bind _ _ first _ one other, cursor =>
    one.fields cursor ++
      match first cursor with
      | .ok a after => (other a).fields after
      | .error _ _ => []
  | _, _, offset, _ => []
  | _, _, byte, _ => []
  | _, _, take _, _ => []
  | _, _, rest, _ => []
  | _, _, uint32, cursor => numberField readUInt32 .uint32 cursor
  | _, _, int32, cursor => numberField readInt32 .int32 cursor
  | _, _, int64, cursor => numberField readInt64 .int64 cursor
  | _, _, @untilEmpty _ entry script, cursor =>
    listUntilEmpty entry script.fields cursor.remaining cursor
  | _, _, within size script, cursor =>
    if cursor.remaining < size then []
    else script.fields ⟨cursor.offset, cursor.rest.take size⟩
  | _, _, blaming _ _ script, cursor => script.fields cursor

/-- The fields of a sequence are those of its parts. -/
theorem fields_bind_of_ok {α β : Type} {first : Reader α} {next : α → Reader β}
    {one : Script first} {other : (a : α) → Script (next a)} {cursor after : Cursor} {a : α}
    (found : first cursor = .ok a after) :
    (bind one other).fields cursor = one.fields cursor ++ (other a).fields after := by
  rw [fields, found]

variable {α : Type}

/-! ## The scripts of a module's readers -/

def ite {p : Prop} {one other : Reader α} : [Decidable p] → Script one → Script other →
    Script (if p then one else other)
  | .isTrue _, script, _ => script
  | .isFalse _, _, script => script

/-- The fields of a choice are those of what was chosen. -/
theorem fields_ite {p : Prop} [decided : Decidable p] {one other : Reader α}
    (first : Script one) (second : Script other) (cursor : Cursor) :
    (ite (p := p) first second).fields cursor =
      if p then first.fields cursor else second.fields cursor := by
  cases decided <;> rfl

def code (ofByte? : UInt8 → Option α) (fault : UInt8 → Nat → DecodeError) :
    Script (Reader.code ofByte? fault) :=
  .bind .offset fun start => .bind .byte fun head =>
    match ofByte? head with
    | some a => .pure a
    | none => .throw (fault head start)

def repeated {entry : Reader α} (script : Script entry) :
    (count : Nat) → Script (Reader.repeated entry count)
  | 0 => .pure []
  | count + 1 => .bind script fun head => .bind (repeated script count) fun tail =>
    .pure (head :: tail)

def counted {entry : Reader α} (script : Script entry) : Script (Reader.counted entry) :=
  .bind .uint32 fun count => script.repeated count.toNat

def blob : Script Reader.blob :=
  .bind .uint32 fun length => .take length.toNat

def name : Script Reader.name :=
  .bind .offset fun start => .bind blob fun bytes =>
    match String.fromUTF8? bytes.toByteArray with
    | some text => .pure text
    | none => .throw (.invalidUtf8 start)

def exactly {inner : Reader α} (region : String) (size : Nat) (script : Script inner) :
    Script (Reader.exactly region size inner) :=
  .bind (.within size script) fun (a, consumed) =>
    .ite (p := consumed = size) (.pure a) (.throw (.sizeMismatch region size consumed))

def word32 : Script Reader.word32 :=
  .bind (.take 4) fun _ => .pure _

def word64 : Script Reader.word64 :=
  .bind (.take 8) fun _ => .pure _

def valueType : Script Reader.valueType := .code _ _

def externalKind : Script Reader.externalKind := .code _ _

end Script

end Reader

open Reader

def ImmediateShape.script : (shape : ImmediateShape) → Script shape.read
  | byte => .bind .byte fun _ => .pure _
  | index => .bind .uint32 fun _ => .pure _
  | int32 => .bind .int32 fun _ => .pure _
  | int64 => .bind .int64 fun _ => .pure _
  | float32 => .bind .word32 fun _ => .pure _
  | float64 => .bind .word64 fun _ => .pure _
  | blockType => .bind .valueType fun _ => .pure _
  | branchTable => .bind (.counted .uint32) fun _ => .bind .uint32 fun _ => .pure _
  | callIndirect => .bind .uint32 fun _ => .bind .byte fun _ => .pure _
  | memory => .bind .uint32 fun _ => .bind .uint32 fun _ => .pure _

/-- The script of what is read where there is perhaps an immediate. -/
def ImmediateShape.optionalScript : (shape? : Option ImmediateShape) →
    Script (match shape? with
      | some shape => do return some (← shape.read)
      | none => return none)
  | some shape => .bind shape.script fun _ => .pure _
  | none => .pure none

def Operation.immediateScript (operation : Operation) : Script operation.readImmediate :=
  ImmediateShape.optionalScript operation.shape?

def Instruction.script : Script Instruction.read :=
  .bind (.code _ _) fun operation => .bind operation.immediateScript fun _ => .pure _

def Reader.Script.initializer : Script Reader.initializer :=
  .bind Instruction.script fun _ => .bind .offset fun _ => .bind .byte fun _ =>
    .ite (.pure _) (.throw _)

def Signature.script : Script Signature.read :=
  .bind .valueType fun _ => .bind (.counted .valueType) fun _ =>
    .bind (.counted .valueType) fun _ => .pure _

def Limits.script : Script Limits.read :=
  .bind .offset fun _ => .bind .uint32 fun _ => .bind .uint32 fun _ =>
    .ite (.pure _) (.ite (.bind .uint32 fun _ => .pure _) (.throw _))

def TableType.script : Script TableType.read :=
  .bind .valueType fun _ => .bind Limits.script fun _ => .pure _

def GlobalType.script : Script GlobalType.read :=
  .bind .valueType fun _ => .bind (.code _ _) fun _ => .pure _

def ExternalKind.descriptorScript : (kind : ExternalKind) → Script kind.readDescriptor
  | function => .bind .uint32 fun _ => .pure _
  | table => .bind TableType.script fun _ => .pure _
  | memory => .bind Limits.script fun _ => .pure _
  | global => .bind GlobalType.script fun _ => .pure _

def ImportEntry.script : Script ImportEntry.read :=
  .bind .name fun _ => .bind .name fun _ => .bind .externalKind fun kind =>
    .bind kind.descriptorScript fun _ => .pure _

def GlobalEntry.script : Script GlobalEntry.read :=
  .bind GlobalType.script fun _ => .bind .initializer fun _ => .pure _

def ExportEntry.script : Script ExportEntry.read :=
  .bind .name fun _ => .bind .externalKind fun _ => .bind .uint32 fun _ => .pure _

def ElementEntry.script : Script ElementEntry.read :=
  .bind .uint32 fun _ => .bind .initializer fun _ => .bind (.counted .uint32) fun _ => .pure _

def LocalGroup.script : Script LocalGroup.read :=
  .bind .uint32 fun _ => .bind .valueType fun _ => .pure _

def FunctionBody.contentScript : Script FunctionBody.readContent :=
  .bind (.counted LocalGroup.script) fun _ => .bind (.untilEmpty Instruction.script) fun _ =>
    .pure _

def FunctionBody.script : Script FunctionBody.read :=
  .bind .uint32 fun _ => .bind (.within _ FunctionBody.contentScript) fun _ => .pure _

def DataSegment.script : Script DataSegment.read :=
  .bind .uint32 fun _ => .bind .initializer fun _ => .bind .blob fun _ => .pure _

def NameEntry.script : Script NameEntry.read :=
  .bind .uint32 fun _ => .bind .name fun _ => .pure _

def LocalNames.script : Script LocalNames.read :=
  .bind .uint32 fun _ => .bind (.counted NameEntry.script) fun _ => .pure _

def NameSubsection.payloadScript (kind : UInt8) : Script (NameSubsection.readPayload kind) :=
  .ite (.bind .name fun _ => .pure _) <|
    .ite (.bind (.counted NameEntry.script) fun _ => .pure _) <|
      .ite (.bind (.counted LocalNames.script) fun _ => .pure _) (.bind .rest fun _ => .pure _)

def NameSubsection.script : Script NameSubsection.read :=
  .bind .byte fun kind => .bind .uint32 fun _ => .exactly _ _ (NameSubsection.payloadScript kind)

def CustomPayload.script (name : String) : Script (CustomPayload.read name) :=
  .ite (.bind (.untilEmpty NameSubsection.script) fun _ => .pure _) (.bind .rest fun _ => .pure _)

def SectionKind.payloadScript : (kind : SectionKind) → Script kind.readPayload
  | custom => .bind .name fun name => .bind (CustomPayload.script name) fun _ => .pure _
  | types => .bind (.counted Signature.script) fun _ => .pure _
  | imports => .bind (.counted ImportEntry.script) fun _ => .pure _
  | functions => .bind (.counted .uint32) fun _ => .pure _
  | tables => .bind (.counted TableType.script) fun _ => .pure _
  | memories => .bind (.counted Limits.script) fun _ => .pure _
  | globals => .bind (.counted GlobalEntry.script) fun _ => .pure _
  | exports => .bind (.counted ExportEntry.script) fun _ => .pure _
  | start => .bind .uint32 fun _ => .pure _
  | elements => .bind (.counted ElementEntry.script) fun _ => .pure _
  | code => .bind (.counted FunctionBody.script) fun _ => .pure _
  | data => .bind (.counted DataSegment.script) fun _ => .pure _
  | dataCount => .bind .uint32 fun _ => .pure _

def LocatedSection.script : Script LocatedSection.read :=
  .bind .offset fun _ => .bind (.code _ _) fun kind => .bind .uint32 fun _ =>
    .bind (.exactly _ _ (.blaming _ _ kind.payloadScript)) fun _ => .pure _

def Section.script : Script Section.read :=
  .bind LocatedSection.script fun _ => .pure _

def Preamble.script : Script Preamble.read :=
  .bind .word32 fun _ => .bind .word32 fun _ => .pure _

def Module.script : Script Module.read :=
  .bind Preamble.script fun _ => .bind (.untilEmpty Section.script) fun _ => .pure _

end WasmGas

import WasmGas.Proofs.Wire.Frame
import WasmGas.Proofs.Wire.Script

/-! # Writing again what was read

Bytes that were read are put beside the bytes that are written for what was found in them.
The latter are never more, and they are the same bytes exactly if each number was read from
the groups that are written for it (`Rewriting`). A reader whose values can always be written
in some form that stands in this relation to the bytes that it took is said to rewrite that
form (`Reader.Script.Rewrites`). As in `WasmGas.Proofs.Wire.Frame` there is a rule for each way
in which readers are put together. In a region the size changes with the content: it is the
one number whose groups may be written shorter even if they were the shortest of what was
read, but then the content was shorter already (`Reader.Script.rewrites_sized`).
-/

namespace WasmGas

open Leb128

/-- How the bytes written for something stand to those that it was read from, by the numbers
among the latter. -/
structure Rewriting (fields : List NumberField) (used written : Bytes) : Prop where
  length_le : written.length ≤ used.length
  eq_iff : written = used ↔ ∀ field ∈ fields, field.AsWritten

namespace Rewriting

theorem same (bytes : Bytes) : Rewriting [] bytes bytes where
  length_le := le_rfl
  eq_iff := by
    constructor
    · intro _ field absurdly
      cases absurdly
    · intro _
      rfl

/-- A number is written with its own groups. -/
theorem number {number : Number} {groups : Bytes}
    (shorter : number.write.length ≤ groups.length) :
    Rewriting [⟨number, groups⟩] groups number.write where
  length_le := shorter
  eq_iff := by
    simp only [List.mem_singleton, forall_eq, NumberField.AsWritten]
    exact eq_comm

/-- Neither of two parts can make up for the other. -/
theorem append {first others : List NumberField} {head tail headWritten tailWritten : Bytes}
    (one : Rewriting first head headWritten) (other : Rewriting others tail tailWritten) :
    Rewriting (first ++ others) (head ++ tail) (headWritten ++ tailWritten) where
  length_le := by
    rw [List.length_append, List.length_append]
    exact Nat.add_le_add one.length_le other.length_le
  eq_iff := by
    simp only [List.mem_append, or_imp, forall_and, ← one.eq_iff, ← other.eq_iff]
    constructor
    · intro equal
      have lengths := congrArg List.length equal
      rw [List.length_append, List.length_append] at lengths
      have heads := one.length_le
      have tails := other.length_le
      exact List.append_inj equal (by omega)
    · rintro ⟨rfl, rfl⟩
      rfl

/-- The size of a region fits the content that is written, not the one that was read. -/
theorem sized {fields : List NumberField} {size : UInt32} {groups content written : Bytes}
    (shorter : (uint32 size).length ≤ groups.length) (fits : content.length = size.toNat)
    (inner : Rewriting fields content written) :
    Rewriting (⟨.uint32 size, groups⟩ :: fields) (groups ++ content)
      (ofNat written.length ++ written) := by
  have least : (ofNat written.length).length ≤ groups.length := by
    refine le_trans (length_ofNat_mono ?_) shorter
    rw [← fits]
    exact inner.length_le
  constructor
  · rw [List.length_append, List.length_append]
    exact Nat.add_le_add least inner.length_le
  · rw [List.forall_mem_cons, ← inner.eq_iff]
    change _ ↔ groups = uint32 size ∧ _
    constructor
    · intro equal
      have lengths := congrArg List.length equal
      rw [List.length_append, List.length_append] at lengths
      have contents := inner.length_le
      obtain ⟨sizes, rfl⟩ := List.append_inj equal (by omega)
      rw [uint32, ← fits, sizes]
      exact ⟨rfl, rfl⟩
    · rintro ⟨rfl, rfl⟩
      rw [uint32, fits]

end Rewriting

/-- One cursor comes after another one by some bytes. -/
structure Cursor.Advances (cursor : Cursor) (used : Bytes) (after : Cursor) : Prop where
  rest : cursor.rest = used ++ after.rest
  offset : after.offset = cursor.offset + used.length

theorem Cursor.Advances.refl (cursor : Cursor) : cursor.Advances [] cursor := ⟨rfl, rfl⟩

theorem Cursor.Advances.trans {cursor between after : Cursor} {head tail : Bytes}
    (one : cursor.Advances head between) (other : between.Advances tail after) :
    cursor.Advances (head ++ tail) after where
  rest := by rw [one.rest, other.rest, List.append_assoc]
  offset := by rw [other.offset, one.offset, List.length_append, Nat.add_assoc]

namespace Reader.Script

variable {α β : Type}

/-- Whatever the reader finds can be written in some form, and no longer than it was. -/
def Rewrites {reader : Reader α} (script : Script reader) (form : α → Bytes → Prop) : Prop :=
  ∀ ⦃cursor after : Cursor⦄ ⦃a : α⦄, reader cursor = .ok a after →
    ∃ used written, cursor.Advances used after ∧ form a written ∧
      Rewriting (script.fields cursor) used written

/-- What is written in one form is written in any form that it has. -/
theorem Rewrites.mono {reader : Reader α} {script : Script reader} {form other : α → Bytes → Prop}
    (rewrites : script.Rewrites form)
    (weaker : ∀ ⦃a written⦄, form a written → other a written) : script.Rewrites other := by
  intro cursor after a read
  obtain ⟨used, written, advances, formed, rewriting⟩ := rewrites read
  exact ⟨used, written, advances, weaker formed, rewriting⟩

theorem rewrites_pure {a : α} {form : α → Bytes → Prop} (formed : form a []) :
    (pure a).Rewrites form := by
  intro cursor after b read
  cases read
  exact ⟨[], [], .refl cursor, formed, .same []⟩

theorem rewrites_throw {fault : DecodeError} {form : α → Bytes → Prop} :
    (throw fault : Script (MonadExcept.throw fault : Reader α)).Rewrites form := by
  intro cursor after a read
  cases read

/-- What the second reader finds has to take a form behind any form of the first. -/
theorem Rewrites.bind {first : Reader α} {next : α → Reader β} {one : Script first}
    {other : (a : α) → Script (next a)} {form : α → Bytes → Prop} {whole : β → Bytes → Prop}
    (head : one.Rewrites form)
    (tail : ∀ a, (other a).Rewrites fun b written =>
      ∀ before, form a before → whole b (before ++ written)) :
    (Script.bind one other).Rewrites whole := by
  intro cursor after b read
  obtain ⟨a, between, found, further⟩ := bind_eq_ok.mp read
  obtain ⟨used, written, advances, formed, rewriting⟩ := head found
  obtain ⟨used', written', advances', formed', rewriting'⟩ := tail a further
  refine ⟨used ++ used', written ++ written', advances.trans advances', formed' written formed, ?_⟩
  rw [fields_bind_of_ok found]
  exact rewriting.append rewriting'

theorem Rewrites.map {reader : Reader α} {script : Script reader} {form : α → Bytes → Prop}
    {whole : β → Bytes → Prop} {f : α → β} (rewrites : script.Rewrites form)
    (put : ∀ ⦃a written⦄, form a written → whole (f a) written) :
    (Script.bind script fun a => .pure (f a)).Rewrites whole := by
  refine rewrites.bind fun a => rewrites_pure ?_
  intro written formed
  rw [List.append_nil]
  exact put formed

/-- A place in the file is not written. -/
theorem rewrites_offset : offset.Rewrites fun _ written => written = [] := by
  intro cursor after start read
  cases read
  exact ⟨[], [], .refl cursor, rfl, .same []⟩

theorem rewrites_byte : byte.Rewrites fun value written => written = [value] := by
  intro cursor after value read
  obtain ⟨start, rest⟩ := cursor
  cases rest with
  | nil => cases read
  | cons head tail =>
      cases read
      exact ⟨[value], [value], ⟨rfl, rfl⟩, rfl, .same [value]⟩

/-- Bytes are taken if they are all there. -/
theorem take_eq_ok {count : Nat} {cursor after : Cursor} {bytes : Bytes} :
    Reader.take count cursor = .ok bytes after ↔
      count ≤ cursor.remaining ∧ bytes = cursor.rest.take count ∧ after = cursor.advance count := by
  unfold Reader.take
  by_cases short : cursor.remaining < count
  · rw [if_pos short]
    constructor
    · intro read
      cases read
    · rintro ⟨enough, _⟩
      omega
  · rw [if_neg short]
    constructor
    · intro read
      cases read
      exact ⟨Nat.le_of_not_lt short, rfl, rfl⟩
    · rintro ⟨_, rfl, rfl⟩
      rfl

/-- What is taken is what the cursor goes past. -/
theorem advances_take {count : Nat} {cursor : Cursor} (enough : count ≤ cursor.remaining) :
    cursor.Advances (cursor.rest.take count) (cursor.advance count) where
  rest := (List.take_append_drop count cursor.rest).symm
  offset := by rw [List.length_take_of_le enough, Cursor.advance]

/-- Bytes are written as they were taken. -/
theorem rewrites_take (count : Nat) :
    (take count).Rewrites fun bytes written => bytes.length = count ∧ written = bytes := by
  intro cursor after bytes read
  obtain ⟨enough, rfl, rfl⟩ := take_eq_ok.mp read
  exact ⟨_, _, advances_take enough, ⟨List.length_take_of_le enough, rfl⟩, .same _⟩

theorem rewrites_rest : rest.Rewrites fun bytes written => written = bytes := by
  intro cursor after bytes read
  cases read
  have all := advances_take (le_refl cursor.remaining)
  rw [Cursor.remaining, List.take_length] at all
  exact ⟨_, _, all, rfl, .same _⟩

/-- A number is written with shortest groups in place of those that were read. -/
theorem rewrites_number {reader : Reader α} {write : α → Bytes} {number : α → Number}
    {script : Script reader} (reads : ReadsNumber reader write)
    (written : ∀ a, (number a).write = write a)
    (listed : ∀ cursor, script.fields cursor = numberField reader number cursor) :
    script.Rewrites fun a bytes => bytes = write a := by
  intro cursor after a read
  obtain ⟨groups, split, moved, shorter⟩ := reads.takes read
  refine ⟨groups, write a, ⟨split, moved⟩, rfl, ?_⟩
  have front : cursor.rest.take (after.offset - cursor.offset) = groups := by
    rw [moved, Nat.add_sub_cancel_left, split, List.take_left]
  rw [listed, numberField, read]
  simp only [front]
  rw [← written a] at shorter ⊢
  exact .number shorter

theorem rewrites_uint32 : uint32.Rewrites fun n written => written = WasmGas.uint32 n :=
  rewrites_number readsNumber_uint32 (fun _ => rfl) fun _ => rfl

theorem rewrites_int32 : int32.Rewrites fun i written => written = WasmGas.int32 i :=
  rewrites_number readsNumber_int32 (fun _ => rfl) fun _ => rfl

theorem rewrites_int64 : int64.Rewrites fun i written => written = WasmGas.int64 i :=
  rewrites_number readsNumber_int64 (fun _ => rfl) fun _ => rfl

theorem rewrites_ite {p : Prop} [decided : Decidable p] {one other : Reader α}
    {first : Script one} {second : Script other} {form : α → Bytes → Prop}
    (holds : p → first.Rewrites form) (fails : ¬ p → second.Rewrites form) :
    (ite (p := p) first second).Rewrites form := by
  cases decided with
  | isTrue proof => exact holds proof
  | isFalse refutation => exact fails refutation

/-- A code is written as the byte that was read. -/
theorem rewrites_code {ofByte? : UInt8 → Option α} {fault : UInt8 → Nat → DecodeError} :
    (code ofByte? fault).Rewrites fun a written =>
      ∃ value, ofByte? value = some a ∧ written = [value] := by
  refine rewrites_offset.bind fun start => ?_
  refine rewrites_byte.bind fun value => ?_
  cases known : ofByte? value with
  | none => exact rewrites_throw
  | some a =>
      apply rewrites_pure
      rintro _ rfl _ rfl
      exact ⟨value, known, rfl⟩

/-! ## Lists -/

/-- As many entries are written as were read. -/
theorem rewrites_repeated {entry : Reader α} {script : Script entry} {write : α → Writing}
    (each : script.Rewrites fun a written => write a = .ok written) (count : Nat) :
    (script.repeated count).Rewrites fun entries written =>
      entries.length = count ∧ Writing.concat write entries = .ok written := by
  induction count with
  | zero => exact rewrites_pure ⟨rfl, rfl⟩
  | succ count rewrites =>
      refine each.bind fun head => ?_
      apply rewrites.map
      rintro tail others ⟨rfl, listed⟩ first one
      exact ⟨rfl, Writing.concat_cons_eq_ok.mpr ⟨first, others, one, listed, rfl⟩⟩

/-- A counted list is written with the count of what was read. -/
theorem rewrites_counted {entry : Reader α} {script : Script entry} {write : α → Writing}
    (what : String) (each : script.Rewrites fun a written => write a = .ok written) :
    script.counted.Rewrites fun entries written =>
      Writing.counted what write entries = .ok written := by
  refine rewrites_uint32.bind fun count => ?_
  apply (rewrites_repeated each count.toNat).mono
  rintro entries content ⟨counted, listed⟩ _ rfl
  rw [WasmGas.uint32, ← counted]
  exact Writing.counted_eq_ok.mpr ⟨content, counted ▸ count.toNat_lt, listed, rfl⟩

/-- Entries whose writing cannot fail. -/
theorem rewrites_countedPure {entry : Reader α} {script : Script entry} {write : α → Bytes}
    (what : String) (each : script.Rewrites fun a written => written = write a) :
    script.counted.Rewrites fun entries written =>
      Writing.counted what (fun a => Pure.pure (write a)) entries = .ok written :=
  rewrites_counted what (each.mono fun _ _ same => congrArg Except.ok same.symm)

/-- Entries that are read until nothing is left leave nothing, for each of them takes a
byte and the limit is the number of bytes. -/
theorem rewriting_untilEmpty {entry : Reader α} {script : Script entry} {write : α → Writing}
    {known : α → Prop}
    (each : script.Rewrites fun a written => write a = .ok written ∧ known a)
    (nonempty : ∀ {a written}, write a = .ok written → written ≠ []) {cursor after : Cursor}
    {entries : List α} (read : Reader.untilEmpty entry cursor = .ok entries after) :
    after.rest = [] ∧ ∃ written, cursor.Advances cursor.rest after ∧
      Writing.concat write entries = .ok written ∧ (∀ a ∈ entries, known a) ∧
      Rewriting (script.untilEmpty.fields cursor) cursor.rest written := by
  -- The limit is not tied to the cursor, so that it can go down by one for each entry.
  suffices within : ∀ limit {cursor : Cursor} {entries : List α}, cursor.remaining ≤ limit →
      untilEmptyWithin entry limit cursor = .ok entries after →
      after.rest = [] ∧ ∃ written, cursor.Advances cursor.rest after ∧
        Writing.concat write entries = .ok written ∧ (∀ a ∈ entries, known a) ∧
        Rewriting (listUntilEmpty entry script.fields limit cursor) cursor.rest written from
    within cursor.remaining le_rfl read
  intro limit
  induction limit with
  | zero =>
      intro cursor entries enough read
      cases read
      have empty : after.rest = [] := List.length_eq_zero_iff.mp (Nat.le_zero.mp enough)
      refine ⟨empty, [], ?_, rfl, ?_, ?_⟩
      · rw [empty]
        exact .refl after
      · intro a absurdly
        cases absurdly
      · rw [empty]
        exact .same []
  | succ limit rewrites =>
      intro cursor entries enough read
      obtain ⟨looked, _, found, read⟩ := bind_eq_ok.mp read
      cases found
      by_cases empty : cursor.rest.isEmpty = true
      · rw [if_pos empty] at read
        cases read
        have nothing := List.isEmpty_iff.mp empty
        refine ⟨nothing, [], ?_, rfl, ?_, ?_⟩
        · rw [nothing]
          exact .refl after
        · intro a absurdly
          cases absurdly
        · rw [listUntilEmpty, if_pos empty, nothing]
          exact .same []
      · rw [if_neg empty] at read
        obtain ⟨head, between, one, read⟩ := bind_eq_ok.mp read
        obtain ⟨tail, last, others, put⟩ := bind_eq_ok.mp read
        cases put
        obtain ⟨used, first, advances, ⟨written, knows⟩, rewriting⟩ := each one
        have taken : 0 < used.length :=
          lt_of_lt_of_le (List.length_pos_iff.mpr (nonempty written)) rewriting.length_le
        -- What an entry is written as is not empty, and so neither is what it was read from.
        have fewer : between.remaining ≤ limit := by
          have lengths := congrArg List.length advances.rest
          rw [List.length_append] at lengths
          simp only [Cursor.remaining] at enough ⊢
          omega
        obtain ⟨ends, rest, moves, listed, all, others'⟩ := rewrites fewer others
        refine ⟨ends, first ++ rest, ?_, ?_, ?_, ?_⟩
        · rw [advances.rest]
          exact advances.trans moves
        · exact Writing.concat_cons_eq_ok.mpr ⟨first, rest, written, listed, rfl⟩
        · exact List.forall_mem_cons.mpr ⟨knows, all⟩
        · rw [listUntilEmpty, if_neg empty, one, advances.rest]
          exact rewriting.append others'

/-- Entries that were read until nothing was left are written one after another. -/
theorem rewrites_untilEmpty {entry : Reader α} {script : Script entry} {write : α → Writing}
    {known : α → Prop}
    (each : script.Rewrites fun a written => write a = .ok written ∧ known a)
    (nonempty : ∀ {a written}, write a = .ok written → written ≠ []) :
    script.untilEmpty.Rewrites fun entries written =>
      Writing.concat write entries = .ok written ∧ ∀ a ∈ entries, known a := by
  intro cursor after entries read
  obtain ⟨_, written, advances, listed, all, rewriting⟩ := rewriting_untilEmpty each nonempty read
  exact ⟨cursor.rest, written, advances, ⟨listed, all⟩, rewriting⟩

/-! ## Regions -/

/-- A slice is the front of what is left, if that is long enough. -/
theorem slice_eq_ok {size : Nat} {cursor after window : Cursor}
    (read : slice size cursor = .ok window after) :
    size ≤ cursor.remaining ∧ window = ⟨cursor.offset, cursor.rest.take size⟩ ∧
      after = cursor.advance size := by
  obtain ⟨start, _, located, read⟩ := bind_eq_ok.mp read
  cases located
  obtain ⟨bytes, _, taken, put⟩ := bind_eq_ok.mp read
  cases put
  obtain ⟨enough, rfl, rfl⟩ := take_eq_ok.mp taken
  exact ⟨enough, rfl, rfl⟩

/-- What is read within a region is read from its bytes alone, and the cursor goes past them all. -/
theorem within_eq_ok {size : Nat} {inner : Reader α} {cursor after : Cursor} {a : α}
    {consumed : Nat} (read : Reader.within size inner cursor = .ok (a, consumed) after) :
    size ≤ cursor.remaining ∧ after = cursor.advance size ∧
      ∃ left, inner ⟨cursor.offset, cursor.rest.take size⟩ = .ok a left ∧
        consumed = left.offset - cursor.offset := by
  obtain ⟨window, _, sliced, read⟩ := bind_eq_ok.mp read
  obtain ⟨enough, rfl, rfl⟩ := slice_eq_ok sliced
  cases one : inner ⟨cursor.offset, cursor.rest.take size⟩ with
  | ok found left =>
      simp only [one] at read
      cases read
      exact ⟨enough, rfl, left, rfl, rfl⟩
  | error fault left =>
      simp only [one] at read
      cases read

/-- A region is used up whatever is read within it. -/
theorem remaining_of_within {size : Nat} {inner : Reader α} {cursor after : Cursor} {a : α}
    {consumed : Nat} (read : Reader.within size inner cursor = .ok (a, consumed) after) :
    cursor.remaining = size + after.remaining := by
  obtain ⟨enough, rfl, _⟩ := within_eq_ok read
  rw [Cursor.remaining] at enough ⊢
  rw [Cursor.remaining, Cursor.advance, List.length_drop]
  omega

/-- A region that must be used up has as many bytes as were declared. -/
theorem remaining_of_exactly {region : String} {size : Nat} {inner : Reader α}
    {cursor after : Cursor} {a : α}
    (read : Reader.exactly region size inner cursor = .ok a after) :
    cursor.remaining = size + after.remaining := by
  obtain ⟨⟨b, consumed⟩, between, found, checked⟩ := bind_eq_ok.mp read
  dsimp only at checked
  by_cases whole : consumed = size
  · rw [if_pos whole] at checked
    cases checked
    exact remaining_of_within found
  · rw [if_neg whole] at checked
    cases checked

/-- A region that was read to its end is written again like its content. -/
theorem Rewrites.inWhole {size : Nat} {inner : Reader α} {script : Script inner}
    {form : α → Bytes → Prop} (rewrites : script.Rewrites form) {cursor after : Cursor} {a : α}
    (read : Reader.within size inner cursor = .ok (a, size) after) :
    ∃ used written, cursor.Advances used after ∧ form a written ∧
      Rewriting ((script.within size).fields cursor) used written := by
  obtain ⟨enough, rfl, left, one, consumed⟩ := within_eq_ok read
  obtain ⟨used, written, advances, formed, rewriting⟩ := rewrites one
  have long : used.length = size := by
    have moved := advances.offset
    simp only at moved
    omega
  have all : used = cursor.rest.take size := by
    have front := congrArg (List.take size) advances.rest
    rw [← long, List.take_left, long, List.take_take, Nat.min_self] at front
    exact front.symm
  refine ⟨_, written, advances_take enough, formed, ?_⟩
  rw [fields, if_neg (Nat.not_lt.mpr enough), ← all]
  rw [all] at rewriting ⊢
  exact rewriting

/-- A region whose reader leaves nothing. -/
theorem rewrites_within {size : Nat} {inner : Reader α} {script : Script inner}
    {form : α → Bytes → Prop} (rewrites : script.Rewrites form)
    (whole : ∀ ⦃cursor left : Cursor⦄ ⦃a : α⦄, inner cursor = .ok a left → left.rest = []) :
    (script.within size).Rewrites fun found written => form found.1 written := by
  rintro cursor after ⟨a, consumed⟩ read
  obtain ⟨enough, _, left, one, offsets⟩ := within_eq_ok read
  obtain ⟨used, _, advances, _⟩ := rewrites one
  have all : cursor.rest.take size = used := by
    rw [← List.append_nil used, ← whole one]
    exact advances.rest
  have long : consumed = size := by
    have moved := advances.offset
    rw [← all, List.length_take_of_le enough] at moved
    simp only at moved
    omega
  rw [long] at read
  exact rewrites.inWhole read

/-- A region that has to be read to its end. -/
theorem rewrites_exactly (region : String) (size : Nat) {inner : Reader α}
    {script : Script inner} {form : α → Bytes → Prop} (rewrites : script.Rewrites form) :
    (script.exactly region size).Rewrites form := by
  intro cursor after a read
  obtain ⟨⟨b, consumed⟩, between, found, checked⟩ := bind_eq_ok.mp read
  dsimp only at checked
  by_cases whole : consumed = size
  · rw [if_pos whole] at checked
    cases checked
    obtain ⟨used, written, advances, formed, rewriting⟩ := rewrites.inWhole (whole ▸ found)
    have silent : (ite (p := consumed = size) (pure a)
        (throw (.sizeMismatch region size consumed))).fields after = [] := by
      rw [fields_ite, if_pos whole, fields]
    have listed : (script.exactly region size).fields cursor = (script.within size).fields cursor :=
      (fields_bind_of_ok found).trans ((congrArg _ silent).trans (List.append_nil _))
    exact ⟨used, written, advances, formed, listed ▸ rewriting⟩
  · rw [if_neg whole] at checked
    cases checked

/-- Blame does not change what is written. -/
theorem rewrites_blaming (region : String) (size : Nat) {inner : Reader α}
    {script : Script inner} {form : α → Bytes → Prop} (rewrites : script.Rewrites form) :
    (script.blaming region size).Rewrites form := by
  intro cursor after a read
  cases one : inner cursor with
  | ok b left =>
      rw [Reader.blaming, one] at read
      cases read
      exact rewrites one
  | error fault left =>
      rw [Reader.blaming, one] at read
      cases read

/-- A region and the size in front of it. -/
theorem rewrites_sized {next : UInt32 → Reader α} {other : (size : UInt32) → Script (next size)}
    {form : α → Bytes → Prop} (what : String) (rewrites : ∀ size, (other size).Rewrites form)
    (exact : ∀ ⦃size : UInt32⦄ ⦃cursor after : Cursor⦄ ⦃a : α⦄, next size cursor = .ok a after →
      cursor.remaining = size.toNat + after.remaining) :
    (Script.bind .uint32 other).Rewrites fun a written =>
      ∃ content, form a content ∧ Writing.sized what content = .ok written := by
  intro cursor after a read
  obtain ⟨size, between, found, further⟩ := bind_eq_ok.mp read
  obtain ⟨groups, split, moved, shorter⟩ := readsNumber_uint32.takes found
  obtain ⟨used, content, advances, formed, rewriting⟩ := rewrites size further
  have fits : used.length = size.toNat := by
    have lengths := exact further
    rw [Cursor.remaining, advances.rest, List.length_append, Cursor.remaining] at lengths
    omega
  have front : cursor.rest.take (between.offset - cursor.offset) = groups := by
    rw [moved, Nat.add_sub_cancel_left, split, List.take_left]
  have small : content.length < UInt32.size :=
    lt_of_le_of_lt (rewriting.length_le.trans fits.le) size.toNat_lt
  refine ⟨groups ++ used, ofNat content.length ++ content, Cursor.Advances.trans ⟨split, moved⟩
    advances, ⟨content, formed, Writing.sized_eq_ok.mpr ⟨small, rfl⟩⟩, ?_⟩
  rw [fields_bind_of_ok found, fields, numberField, found]
  simp only [front]
  exact .sized shorter fits rewriting

/-- Bytes are written behind their own size. -/
theorem rewrites_blob (what : String) :
    blob.Rewrites fun bytes written => Writing.sized what bytes = .ok written := by
  refine rewrites_uint32.bind fun length => ?_
  apply (rewrites_take length.toNat).mono
  rintro bytes _ ⟨long, rfl⟩ _ rfl
  rw [WasmGas.uint32, ← long]
  exact Writing.sized_eq_ok.mpr ⟨long ▸ length.toNat_lt, rfl⟩

/-- Bytes that hold a text are the bytes of that text. -/
theorem toUTF8_of_fromUTF8? {bytes : Bytes} {text : String}
    (holds : String.fromUTF8? bytes.toByteArray = some text) : text.toUTF8.data.toList = bytes := by
  unfold String.fromUTF8? at holds
  split at holds
  · cases holds
    exact List.toList_data_toByteArray
  · cases holds

/-- A name is written behind its own length. -/
theorem rewrites_name : name.Rewrites fun text written => Writing.name text = .ok written := by
  refine rewrites_offset.bind fun start => ?_
  refine (rewrites_blob "name").bind fun bytes => ?_
  cases holds : String.fromUTF8? bytes.toByteArray with
  | none => exact rewrites_throw
  | some text =>
      apply rewrites_pure
      rintro written sized _ rfl
      rw [List.append_nil, List.nil_append, Writing.name, toUTF8_of_fromUTF8? holds]
      exact sized

end Reader.Script

end WasmGas

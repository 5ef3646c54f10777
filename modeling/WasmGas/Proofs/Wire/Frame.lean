import WasmGas.Proofs.Except
import WasmGas.Proofs.Wire.Groups

/-! # Frames

A list is framed by its count, a name or a region by its size. For each frame it is said when
it can be written and what is then written (`Writing.counted_eq_ok`, `Writing.sized_eq_ok`),
and that the reader of the frame finds again what was framed if the readers of its content
do (`Reader.readsBack_counted`, `Reader.readsBack_sized`). Entries without a count end where
their region does; none of them may be empty (`Reader.readsAll_untilEmpty`).
-/

namespace WasmGas

open Leb128

namespace Writing

variable {α β : Type}

theorem length_eq_ok {what : String} {n : Nat} {bytes : Bytes} :
    length what n = .ok bytes ↔ n < UInt32.size ∧ bytes = ofNat n := by
  unfold length
  by_cases small : n < UInt32.size
  · rw [if_pos small]
    constructor
    · intro written
      cases written
      exact ⟨small, rfl⟩
    · rintro ⟨_, rfl⟩
      rfl
  · rw [if_neg small]
    constructor
    · intro written
      cases written
    · rintro ⟨absurdly, _⟩
      exact absurd absurdly small

theorem sized_eq_ok {what : String} {content bytes : Bytes} :
    sized what content = .ok bytes ↔
      content.length < UInt32.size ∧ bytes = ofNat content.length ++ content := by
  unfold sized
  rw [Except.bind_eq_ok]
  constructor
  · rintro ⟨size, written, put⟩
    obtain ⟨small, rfl⟩ := length_eq_ok.mp written
    cases put
    exact ⟨small, rfl⟩
  · rintro ⟨small, rfl⟩
    exact ⟨ofNat content.length, length_eq_ok.mpr ⟨small, rfl⟩, rfl⟩

theorem concat_cons_eq_ok {entry : α → Writing} {head : α} {tail : List α} {bytes : Bytes} :
    concat entry (head :: tail) = .ok bytes ↔
      ∃ first others, entry head = .ok first ∧ concat entry tail = .ok others ∧
        bytes = first ++ others := by
  rw [concat, Except.bind_eq_ok]
  constructor
  · rintro ⟨first, written, rest⟩
    obtain ⟨others, further, put⟩ := Except.bind_eq_ok.mp rest
    cases put
    exact ⟨first, others, written, further, rfl⟩
  · rintro ⟨first, others, written, further, rfl⟩
    exact ⟨first, written, Except.bind_eq_ok.mpr ⟨others, further, rfl⟩⟩

/-- Entries are written behind their count if that fits into four bytes. -/
theorem counted_eq_ok {what : String} {entry : α → Writing} {entries : List α} {bytes : Bytes} :
    counted what entry entries = .ok bytes ↔
      ∃ content, entries.length < UInt32.size ∧ concat entry entries = .ok content ∧
        bytes = ofNat entries.length ++ content := by
  unfold counted
  rw [Except.bind_eq_ok]
  constructor
  · rintro ⟨count, written, rest⟩
    obtain ⟨small, rfl⟩ := length_eq_ok.mp written
    obtain ⟨content, further, put⟩ := Except.bind_eq_ok.mp rest
    cases put
    exact ⟨content, small, further, rfl⟩
  · rintro ⟨content, small, further, rfl⟩
    exact ⟨ofNat entries.length, length_eq_ok.mpr ⟨small, rfl⟩,
      Except.bind_eq_ok.mpr ⟨content, further, rfl⟩⟩

end Writing

namespace Reader

variable {α : Type}

/-- A count or a size is read back like the number that it is. -/
theorem readsBack_length {n : Nat} (small : n < UInt32.size) :
    readUInt32.ReadsBack (UInt32.ofNat n) (ofNat n) := by
  have read := readsNumber_uint32.readsBack (UInt32.ofNat n)
  rwa [uint32, UInt32.toNat_ofNat_of_lt' small] at read

/-- As many entries as were written are read back. -/
theorem readsBack_repeated {entry : Reader α} {write : α → Writing} {entries : List α} :
    ∀ {content}, (∀ a ∈ entries, ∀ {bytes}, write a = .ok bytes → entry.ReadsBack a bytes) →
      Writing.concat write entries = .ok content →
      (repeated entry entries.length).ReadsBack entries content := by
  induction entries with
  | nil =>
      intro content _ written
      cases written
      exact readsBack_pure []
  | cons head tail read =>
      intro content each written
      obtain ⟨first, others, one, rest, rfl⟩ := Writing.concat_cons_eq_ok.mp written
      apply (each head List.mem_cons_self one).bind
      exact (read (fun a inside => each a (List.mem_cons_of_mem head inside)) rest).map _

/-- A counted list is read back if each entry is. -/
theorem readsBack_counted {entry : Reader α} {write : α → Writing} {what : String}
    {entries : List α} {bytes : Bytes}
    (each : ∀ a ∈ entries, ∀ {bytes}, write a = .ok bytes → entry.ReadsBack a bytes)
    (written : Writing.counted what write entries = .ok bytes) :
    (counted entry).ReadsBack entries bytes := by
  obtain ⟨content, small, concat, rfl⟩ := Writing.counted_eq_ok.mp written
  apply (readsBack_length small).bind
  rw [UInt32.toNat_ofNat_of_lt' small]
  exact readsBack_repeated each concat

/-- Entries until nothing is left are read back if none of them is empty: then the number
of bytes is no limit. -/
theorem readsAll_untilEmpty {entry : Reader α} {write : α → Writing} {entries : List α}
    {content : Bytes}
    (each : ∀ a ∈ entries, ∀ {bytes}, write a = .ok bytes →
      entry.ReadsBack a bytes ∧ bytes ≠ [])
    (written : Writing.concat write entries = .ok content) :
    (untilEmpty entry).ReadsAll entries content := by
  have within : ∀ limit, content.length ≤ limit →
      (untilEmptyWithin entry limit).ReadsAll entries content := by
    induction entries generalizing content with
    | nil =>
        cases written
        intro limit _ offset
        cases limit <;> rfl
    | cons head tail read =>
        obtain ⟨first, others, one, rest, rfl⟩ := Writing.concat_cons_eq_ok.mp written
        obtain ⟨found, nonempty⟩ := each head List.mem_cons_self one
        intro limit enough offset
        have positive := List.length_pos_iff.mpr nonempty
        rw [List.length_append] at enough
        obtain ⟨limit, rfl⟩ : ∃ less, limit = less + 1 := Nat.exists_eq_add_one.mpr (by omega)
        have some : (first ++ others).isEmpty = false := by
          rw [List.isEmpty_eq_false_iff]
          exact List.append_ne_nil_of_left_ne_nil nonempty others
        have tails := read (fun a inside => each a (List.mem_cons_of_mem head inside)) rest
          limit (by omega)
        have looked : (get : Reader Cursor) ⟨offset, first ++ others⟩ =
          .ok ⟨offset, first ++ others⟩ ⟨offset, first ++ others⟩ := rfl
        rw [untilEmptyWithin, bind_of_ok looked]
        simp only [some, Bool.false_eq_true, ↓reduceIte]
        exact (found.bindAll (tails.map (head :: ·))) offset
  intro offset
  exact within content.length le_rfl offset

theorem readsBack_blob {what : String} {content bytes : Bytes}
    (written : Writing.sized what content = .ok bytes) : blob.ReadsBack content bytes := by
  obtain ⟨small, rfl⟩ := Writing.sized_eq_ok.mp written
  apply (readsBack_length small).bind
  rw [UInt32.toNat_ofNat_of_lt' small]
  exact readsBack_take content

/-- Text is what its own bytes hold. -/
theorem fromUTF8?_toUTF8 (text : String) :
    String.fromUTF8? text.toUTF8.data.toList.toByteArray = some text := by
  have same : text.toUTF8.data.toList.toByteArray = text.toUTF8 := by
    ext1
    rw [List.data_toByteArray, Array.toArray_toList]
  rw [same, String.fromUTF8?]
  exact dif_pos text.isValidUTF8

/-- A name is read back, for its bytes are those of a text. -/
theorem readsBack_name {text : String} {bytes : Bytes}
    (written : Writing.name text = .ok bytes) : name.ReadsBack text bytes := by
  refine .ofOffset fun start => ?_
  apply (readsBack_blob written).last
  simp only [fromUTF8?_toUTF8]
  exact readsBack_pure text

/-- A slice is the front of what is left. -/
theorem slice_append (offset : Nat) (content following : Bytes) :
    slice content.length ⟨offset, content ++ following⟩ =
      .ok ⟨offset, content⟩ ⟨offset + content.length, following⟩ := by
  have located : Reader.offset ⟨offset, content ++ following⟩ =
    .ok offset ⟨offset, content ++ following⟩ := rfl
  rw [slice, bind_of_ok located, bind_of_ok (readsBack_take content offset following), pure_apply]

/-- What uses up its bytes is read from within a larger file. -/
theorem readsBack_within {inner : Reader α} {a : α} {content : Bytes}
    (read : inner.ReadsAll a content) :
    (within content.length inner).ReadsBack (a, content.length) content := by
  intro offset following
  rw [within, bind_of_ok (slice_append offset content following)]
  simp only [read offset, Nat.add_sub_cancel_left]
  rfl

/-- What uses up its region passes the check that it does. -/
theorem readsBack_exactly {region : String} {inner : Reader α} {a : α} {content : Bytes}
    (read : inner.ReadsAll a content) :
    (exactly region content.length inner).ReadsBack a content := by
  apply (readsBack_within read).last
  simp only [↓reduceIte]
  exact readsBack_pure a

/-- Nothing is blamed on a region where nothing fails. -/
theorem readsAll_blaming {region : String} {size : Nat} {inner : Reader α} {a : α}
    {content : Bytes} (read : inner.ReadsAll a content) :
    (blaming region size inner).ReadsAll a content := by
  intro offset
  rw [blaming, read offset]

/-- A region is read back behind its size. -/
theorem readsBack_sized {what : String} {next : UInt32 → Reader α} {a : α}
    {content bytes : Bytes} (written : Writing.sized what content = .ok bytes)
    (read : ∀ size : UInt32, size.toNat = content.length → (next size).ReadsBack a content) :
    (readUInt32 >>= next).ReadsBack a bytes := by
  obtain ⟨small, rfl⟩ := Writing.sized_eq_ok.mp written
  exact (readsBack_length small).bind (read _ (UInt32.toNat_ofNat_of_lt' small))

end Reader

end WasmGas

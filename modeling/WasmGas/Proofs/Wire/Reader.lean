import WasmGas.Proofs.Except
import WasmGas.Wire.Region

/-! # Readers that read back what was written

A reader reads a value back from some bytes if it returns that value whenever they stand
next, whatever comes after them, and goes on behind them (`Reader.ReadsBack`). The rules
here follow the ways in which readers are put together: one step after another, a counted
list, a name, and a region of its own size, whose content may also be read by a reader that
goes on until nothing is left (`Reader.ReadsAll`).
-/

namespace WasmGas

namespace Reader

variable {α β : Type}

theorem pure_apply (a : α) (cursor : Cursor) :
    (pure a : Reader α) cursor = .ok a cursor := rfl

theorem bind_of_ok {first : Reader α} {next : α → Reader β} {cursor after : Cursor} {a : α}
    (read : first cursor = .ok a after) : (first >>= next) cursor = next a after :=
  EStateM.bind_of_ok read

theorem bind_of_error {first : Reader α} {next : α → Reader β} {cursor left : Cursor}
    {fault : DecodeError} (failed : first cursor = .error fault left) :
    (first >>= next) cursor = .error fault left := by
  change EStateM.bind first next cursor = .error fault left
  rw [EStateM.bind, failed]

/-- Readers that give the same go on in the same way. -/
theorem bind_eq_bind {first other : Reader α} {cursor place : Cursor}
    (same : first cursor = other place) (next : α → Reader β) :
    (first >>= next) cursor = (other >>= next) place := by
  change EStateM.bind first next cursor = EStateM.bind other next place
  rw [EStateM.bind, EStateM.bind, same]

/-- A sequence of two readers succeeds exactly if the first does and then the second. -/
theorem bind_eq_ok {first : Reader α} {next : α → Reader β} {cursor after : Cursor} {b : β} :
    (first >>= next) cursor = .ok b after ↔
      ∃ a between, first cursor = .ok a between ∧ next a between = .ok b after :=
  EStateM.bind_eq_ok

/-- A sequence of two readers fails if the first does, or else the second. -/
theorem bind_eq_error {first : Reader α} {next : α → Reader β} {cursor left : Cursor}
    {fault : DecodeError} :
    (first >>= next) cursor = .error fault left ↔
      first cursor = .error fault left ∨
        ∃ a between, first cursor = .ok a between ∧ next a between = .error fault left := by
  cases found : first cursor with
  | ok a between =>
      rw [bind_of_ok found]
      constructor
      · intro failed
        exact Or.inr ⟨a, between, rfl, failed⟩
      · rintro (failed | ⟨_, _, same, failed⟩)
        · cases failed
        · cases same
          exact failed
  | error other last =>
      rw [bind_of_error found]
      constructor
      · intro failed
        cases failed
        exact Or.inl rfl
      · rintro (failed | ⟨_, _, same, _⟩)
        · cases failed
          rfl
        · cases same

/-- A reader finds a value in some bytes, whatever follows them. -/
def ReadsBack (reader : Reader α) (a : α) (bytes : Bytes) : Prop :=
  ∀ offset following, reader ⟨offset, bytes ++ following⟩ =
    .ok a ⟨offset + bytes.length, following⟩

/-- A reader finds a value in some bytes if nothing follows them. -/
def ReadsAll (reader : Reader α) (a : α) (bytes : Bytes) : Prop :=
  ∀ offset, reader ⟨offset, bytes⟩ = .ok a ⟨offset + bytes.length, []⟩

/-- What is read back from the front of a file is read back from a file of its own. -/
theorem ReadsBack.all {reader : Reader α} {a : α} {bytes : Bytes}
    (readsBack : reader.ReadsBack a bytes) : reader.ReadsAll a bytes := by
  intro offset
  have read := readsBack offset []
  rwa [List.append_nil] at read

theorem readsBack_pure (a : α) : (pure a : Reader α).ReadsBack a [] := by
  intro offset following
  rfl

/-- A sequence is read back from the bytes of both parts. -/
theorem ReadsBack.bind {first : Reader α} {next : α → Reader β} {a : α} {b : β}
    {head tail : Bytes} (one : first.ReadsBack a head) (other : (next a).ReadsBack b tail) :
    (first >>= next).ReadsBack b (head ++ tail) := by
  intro offset following
  rw [List.append_assoc, bind_of_ok (one offset (tail ++ following)),
    other (offset + head.length) following, List.length_append, Nat.add_assoc]

/-- After the last read nothing more is taken. -/
theorem ReadsBack.last {first : Reader α} {next : α → Reader β} {a : α} {b : β} {bytes : Bytes}
    (one : first.ReadsBack a bytes) (other : (next a).ReadsBack b []) :
    (first >>= next).ReadsBack b bytes := by
  have read := one.bind other
  rwa [List.append_nil] at read

theorem ReadsBack.map {reader : Reader α} {a : α} {bytes : Bytes} (f : α → β)
    (readsBack : reader.ReadsBack a bytes) :
    (reader >>= fun a => pure (f a)).ReadsBack (f a) bytes :=
  readsBack.last (readsBack_pure (f a))

theorem ReadsAll.map {reader : Reader α} {a : α} {bytes : Bytes} (f : α → β)
    (readsAll : reader.ReadsAll a bytes) :
    (reader >>= fun a => pure (f a)).ReadsAll (f a) bytes := by
  intro offset
  rw [bind_of_ok (readsAll offset), pure_apply]

/-- A sequence whose second part uses up the file does so itself. -/
theorem ReadsBack.bindAll {first : Reader α} {next : α → Reader β} {a : α} {b : β}
    {head tail : Bytes} (one : first.ReadsBack a head) (other : (next a).ReadsAll b tail) :
    (first >>= next).ReadsAll b (head ++ tail) := by
  intro offset
  rw [bind_of_ok (one offset tail), other (offset + head.length), List.length_append,
    Nat.add_assoc]

/-- Where a reader starts does not matter for what it finds. -/
theorem ReadsBack.ofOffset {next : Nat → Reader β} {b : β} {bytes : Bytes}
    (readsBack : ∀ start, (next start).ReadsBack b bytes) :
    (offset >>= next).ReadsBack b bytes := by
  intro start following
  have located : offset ⟨start, bytes ++ following⟩ = .ok start ⟨start, bytes ++ following⟩ := rfl
  rw [bind_of_ok located, readsBack start start following]

theorem readsBack_byte (value : UInt8) : byte.ReadsBack value [value] := by
  intro offset following
  rfl

theorem readsBack_take (bytes : Bytes) : (take bytes.length).ReadsBack bytes bytes := by
  intro offset following
  have enough : ¬ (bytes ++ following).length < bytes.length := by
    rw [List.length_append]
    omega
  simp only [take, Cursor.remaining, enough, ↓reduceIte, Cursor.advance, List.take_left,
    List.drop_left]

theorem readsAll_rest (bytes : Bytes) : rest.ReadsAll bytes bytes := by
  intro offset
  simp only [rest, Cursor.advance, Cursor.remaining, List.drop_length]

/-- A code is read back if it is the code of the value. -/
theorem readsBack_code {ofByte? : UInt8 → Option α} {fault : UInt8 → Nat → DecodeError}
    {value : UInt8} {a : α} (known : ofByte? value = some a) :
    (code ofByte? fault).ReadsBack a [value] := by
  refine .ofOffset fun start => ?_
  apply (readsBack_byte value).last
  simp only [known]
  exact readsBack_pure a

end Reader

end WasmGas

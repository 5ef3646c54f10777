import WasmGas.Assembly.Assemble
import WasmGas.Proofs.Except
import WasmGas.Proofs.Text.Decimal

/-! # Taking words

When an instruction is taken off the front of some words, and which: the row of the opcode table
that the first word names tells its name, its qualifier and the shape of its immediate
(`Assembly.exists_of_instruction`).
-/

namespace WasmGas

namespace Assembly

/-- A byte is read back from its digits. -/
theorem uint8?_text (n : UInt8) : uint8? (naturalText n.toNat) = some n := by
  rw [uint8?, naturalBelow?_naturalText n.toNat_lt, Option.map_some, UInt8.ofNat_toNat]

/-- An unsigned number is read back from its digits. -/
theorem uint32?_text (n : UInt32) : uint32? (naturalText n.toNat) = some n := by
  rw [uint32?, naturalBelow?_naturalText n.toNat_lt, Option.map_some, UInt32.ofNat_toNat]

theorem int32?_text (i : Int32) : int32? (integerText i.toInt) = some i := by
  rw [int32?, integerWithin?_integerText i.le_toInt i.toInt_lt, Option.map_some, Int32.ofInt_toInt]

theorem int64?_text (i : Int64) : int64? (integerText i.toInt) = some i := by
  rw [int64?, integerWithin?_integerText i.le_toInt i.toInt_lt, Option.map_some, Int64.ofInt_toInt]

/-- An operand is one word that can be read. -/
theorem operand_eq_ok {α : Type} {mnemonic : String} {read? : List Char → Option α} {a : α}
    {words rest : List (List Char)} :
    operand mnemonic read? words = .ok a rest ↔
      ∃ word, words = word :: rest ∧ read? word = some a := by
  cases words with
  | nil =>
      constructor
      · intro taken
        cases taken
      · rintro ⟨_, same, _⟩
        cases same
  | cons word others =>
      unfold operand
      dsimp only [bind, EStateM.bind, get, getThe, MonadStateOf.get, EStateM.get, set, EStateM.set]
      cases known : read? word with
      | none =>
          constructor
          · intro taken
            cases taken
          · rintro ⟨_, same, read⟩
            cases same
            rw [known] at read
            cases read
      | some value =>
          constructor
          · intro taken
            cases taken
            exact ⟨word, rfl, known⟩
          · rintro ⟨_, same, read⟩
            cases same
            rw [known] at read
            cases read
            rfl

/-- An immediate of a single word that can be read. -/
theorem operand_cons {α : Type} {mnemonic : String} {read? : List Char → Option α}
    {word : List Char} {a : α} (known : read? word = some a) (wrap : α → Immediate)
    (rest : List (List Char)) :
    (return wrap (← operand mnemonic read?) : Taker Immediate) (word :: rest) =
      .ok (wrap a) rest :=
  EStateM.bind_eq_ok.mpr ⟨a, rest, operand_eq_ok.mpr ⟨word, rfl, known⟩, rfl⟩

variable {word : List Char} {operation : Operation} {words rest : List (List Char)}

/-- An instruction without an immediate is its mnemonic. -/
theorem instruction_bare (row : operation? word = some operation) (bare : operation.shape? = none)
    (rest : List (List Char)) :
    instruction word rest = .ok ⟨operation.name, operation.qualifier, none⟩ rest := by
  unfold instruction
  simp only [row, bare]
  rfl

/-- An instruction with an immediate is its mnemonic and what the shape takes. -/
theorem instruction_cons {shape : ImmediateShape} {taken : Immediate}
    (row : operation? word = some operation) (shaped : operation.shape? = some shape)
    (operand : immediate (String.ofList word) shape words = .ok taken rest) :
    instruction word words = .ok ⟨operation.name, operation.qualifier, some taken⟩ rest := by
  unfold instruction
  simp only [row, shaped]
  exact EStateM.bind_eq_ok.mpr ⟨taken, rest, operand, rfl⟩

/-- An instruction is one of the row that its first word names. -/
theorem exists_of_instruction {found : Instruction}
    (taken : instruction word words = .ok found rest) :
    ∃ operation, operation? word = some operation ∧
      found.name = operation.name ∧ found.qualifier = operation.qualifier ∧
      (operation.shape? = none ∧ found.immediate = none ∧ rest = words ∨
        ∃ shape value, operation.shape? = some shape ∧ found.immediate = some value ∧
          immediate (String.ofList word) shape words = .ok value rest) := by
  unfold instruction at taken
  cases row : operation? word with
  | none =>
      simp only [row] at taken
      cases taken
  | some operation =>
      cases shaped : operation.shape? with
      | none =>
          simp only [row, shaped] at taken
          cases taken
          exact ⟨operation, rfl, rfl, rfl, Or.inl ⟨shaped, rfl, rfl⟩⟩
      | some shape =>
          simp only [row, shaped] at taken
          obtain ⟨value, _, read, put⟩ := EStateM.bind_eq_ok.mp taken
          cases put
          exact ⟨operation, rfl, rfl, rfl, Or.inr ⟨shape, value, shaped, rfl, read⟩⟩

theorem instructionsWithin_nil (limit : Nat) : instructionsWithin limit [] = .ok [] [] := by
  cases limit with
  | zero => rfl
  | succ limit => rfl

/-- Instructions are assembled one after another. -/
theorem instructionsWithin_cons {limit : Nat} {word : List Char} {rest after : List (List Char)}
    {first : Instruction} (one : instruction word rest = .ok first after) :
    instructionsWithin (limit + 1) (word :: rest) =
      (return first :: (← instructionsWithin limit) : Taker (List Instruction)) after := by
  change (instruction word >>= _) rest = _
  exact EStateM.bind_of_ok one

/-- Instructions are taken one after another. -/
theorem instructionsWithin_cons_eq_ok {limit : Nat} {code : List Instruction} :
    instructionsWithin (limit + 1) (word :: words) = .ok code rest ↔
      ∃ first others between, instruction word words = .ok first between ∧
        instructionsWithin limit between = .ok others rest ∧ code = first :: others := by
  constructor
  · intro taken
    change (instruction word >>= fun first =>
      (return first :: (← instructionsWithin limit) : Taker (List Instruction))) words = _ at taken
    obtain ⟨first, between, one, taken⟩ := EStateM.bind_eq_ok.mp taken
    obtain ⟨others, _, further, put⟩ := EStateM.bind_eq_ok.mp taken
    cases put
    exact ⟨first, others, between, one, further, rfl⟩
  · rintro ⟨first, others, between, one, further, rfl⟩
    rw [instructionsWithin_cons one]
    exact EStateM.bind_eq_ok.mpr ⟨others, rest, further, rfl⟩

/-- There are never more instructions than words. -/
theorem instructions_eq_ok {code : List Instruction} :
    instructions words = .ok code ↔
      ∃ left, instructionsWithin words.length words = .ok code left := by
  unfold instructions
  cases instructionsWithin words.length words with
  | ok found left =>
      constructor
      · intro done
        cases done
        exact ⟨left, rfl⟩
      · rintro ⟨_, same⟩
        cases same
        rfl
  | error fault left =>
      constructor
      · intro done
        cases done
      · rintro ⟨_, same⟩
        cases same

end Assembly

end WasmGas

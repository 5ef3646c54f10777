import WasmGas.Proofs.Assembly.Mnemonics
import WasmGas.Proofs.Assembly.Takers
import WasmGas.Proofs.Wire.Unwritable

/-! # Code from text can be written

An instruction that was taken from words has the immediate that the row of its mnemonic asks for
(`Assembly.tabled_of_instruction`), and no branch table gets more labels than there were words. So
what a text is assembled to can be written and is found again, and if not then a branch table has
too many labels, for which the text has to be a very long one (`assemble_encodes`).
-/

namespace WasmGas

namespace Assembly

variable {mnemonic : String} {words rest : List (List Char)}

/-- The words that labels are read from. -/
theorem exists_of_leadingLabels {targets : List UInt32}
    (taken : leadingLabels words = (targets, rest)) :
    ∃ used, words = used ++ rest ∧ used.map uint32? = targets.map some := by
  induction words generalizing targets with
  | nil =>
      cases taken
      exact ⟨[], rfl, rfl⟩
  | cons word others further =>
      rw [leadingLabels] at taken
      cases read : uint32? word with
      | none =>
          simp only [read] at taken
          cases taken
          exact ⟨[], rfl, rfl⟩
      | some label =>
          simp only [read] at taken
          cases taken
          obtain ⟨used, split, labels⟩ := further rfl
          refine ⟨word :: used, ?_, ?_⟩
          · rw [List.cons_append, ← split]
          · rw [List.map_cons, List.map_cons, read, labels]

/-- What is taken for an immediate of a shape. -/
structure TakenAs (shape : ImmediateShape) (words rest : List (List Char)) (value : Immediate) :
    Prop where
  shape_eq : value.shape = shape
  suffix : rest <:+ words
  few : ∀ targets default, value = .branchTable targets default → targets.length < words.length

/-- An immediate of one word takes up that word. -/
theorem takenAs_of_operand {α : Type} {read? : List Char → Option α} (wrap : α → Immediate)
    {value : Immediate} {shape : ImmediateShape} (shaped : ∀ a, (wrap a).shape = shape)
    (noTable : shape ≠ .branchTable)
    (taken : (return wrap (← operand mnemonic read?) : Taker Immediate) words = .ok value rest) :
    TakenAs shape words rest value := by
  obtain ⟨a, _, read, put⟩ := EStateM.bind_eq_ok.mp taken
  obtain ⟨word, rfl, _⟩ := operand_eq_ok.mp read
  cases put
  refine ⟨shaped a, List.suffix_cons word rest, ?_⟩
  intro targets default table
  rw [← shaped a, table] at noTable
  exact absurd rfl noTable

/-- **An immediate that was taken is of the shape that was asked for.** -/
theorem takenAs_of_immediate {shape : ImmediateShape} {value : Immediate}
    (taken : immediate mnemonic shape words = .ok value rest) : TakenAs shape words rest value := by
  cases shape with
  | byte => exact takenAs_of_operand .byte (fun _ => rfl) nofun taken
  | index => exact takenAs_of_operand .index (fun _ => rfl) nofun taken
  | int32 => exact takenAs_of_operand .int32 (fun _ => rfl) nofun taken
  | int64 => exact takenAs_of_operand .int64 (fun _ => rfl) nofun taken
  | float32 => exact takenAs_of_operand .float32 (fun _ => rfl) nofun taken
  | float64 => exact takenAs_of_operand .float64 (fun _ => rfl) nofun taken
  | callIndirect =>
      exact takenAs_of_operand (.callIndirect · 0) (fun _ => rfl) nofun taken
  | blockType =>
      obtain ⟨type, _, read, put⟩ := EStateM.bind_eq_ok.mp taken
      cases put
      refine ⟨rfl, ?_, nofun⟩
      unfold blockType at read
      split at read
      · cases read
        exact List.suffix_rfl
      · split at read
        · cases read
          exact List.suffix_cons _ _
        · cases read
          exact List.suffix_rfl
  | branchTable =>
      obtain ⟨targets, _, read, put⟩ := EStateM.bind_eq_ok.mp taken
      cases last : targets.getLast? with
      | none =>
          simp only [last] at put
          cases put
      | some default =>
          simp only [last] at put
          cases put
          cases read
          obtain ⟨used, split, labels⟩ :=
            exists_of_leadingLabels (Prod.mk.eta (p := leadingLabels words)).symm
          refine ⟨rfl, ⟨used, split.symm⟩, ?_⟩
          rintro _ _ ⟨⟩
          -- Each label has used up a word, and the last label is the default.
          have long := congrArg List.length labels
          have all := congrArg List.length split
          have some : 0 < (leadingLabels words).1.length := by
            apply List.length_pos_of_ne_nil
            intro none
            rw [none] at last
            cases last
          rw [List.length_map, List.length_map] at long
          rw [List.length_append] at all
          rw [List.length_dropLast]
          omega
  | memory =>
      obtain ⟨flags, _, read, further⟩ := EStateM.bind_eq_ok.mp taken
      obtain ⟨word, rfl, _⟩ := operand_eq_ok.mp read
      have second := takenAs_of_operand (.memory flags) (fun _ => rfl) nofun further
      refine ⟨second.shape_eq, second.suffix.trans (List.suffix_cons _ _), ?_⟩
      intro targets default table
      rw [table] at second
      cases second.shape_eq

variable {word : List Char} {found : Instruction}

/-- **An instruction that was taken can be written.** Its labels were among the words. -/
theorem tabled_of_instruction (taken : instruction word words = .ok found rest) :
    found.Tabled ∧ rest <:+ words ∧ ∀ n ∈ found.lengths, n < words.length := by
  obtain ⟨operation, row, name, qualifier, immediate⟩ := exists_of_instruction taken
  have listed := (operation?_eq_some_iff.mp row).1
  have own : found.operation? = some operation := by
    rw [Instruction.operation?, name, qualifier]
    exact Operation.ofMnemonic?_name listed
  rw [Instruction.Tabled, own, Option.map_some, Instruction.lengths]
  rcases immediate with ⟨bare, none, rfl⟩ | ⟨shape, value, shaped, held, read⟩
  · rw [none, bare]
    refine ⟨rfl, List.suffix_rfl, ?_⟩
    intro n counted
    cases counted
  · have as := takenAs_of_immediate read
    rw [held, shaped, Option.map_some, as.shape_eq]
    refine ⟨rfl, as.suffix, ?_⟩
    intro n counted
    cases value with
    | branchTable targets default =>
        rw [List.mem_singleton.mp counted]
        exact as.few targets default rfl
    | _ => cases counted

/-- What is assembled has a row in the table of operations, and no more operands than words. -/
theorem tabled_of_instructionsWithin {limit : Nat} {code : List Instruction}
    (taken : instructionsWithin limit words = .ok code rest) :
    ∀ instruction ∈ code, instruction.Tabled ∧ ∀ n ∈ instruction.lengths, n < words.length := by
  induction limit generalizing words code with
  | zero =>
      cases taken
      exact nofun
  | succ limit each =>
      cases words with
      | nil =>
          cases taken
          exact nofun
      | cons word others =>
          obtain ⟨first, code, between, one, further, rfl⟩ :=
            instructionsWithin_cons_eq_ok.mp taken
          obtain ⟨tabled, suffix, few⟩ := tabled_of_instruction one
          have shorter := suffix.length_le
          refine List.forall_mem_cons.mpr ⟨⟨tabled, ?_⟩, ?_⟩
          · intro n counted
            exact (few n counted).trans (Nat.lt_succ_self _)
          · intro instruction listed
            obtain ⟨tabled, few⟩ := each further instruction listed
            refine ⟨tabled, fun n counted => ?_⟩
            rw [List.length_cons]
            exact (few n counted).trans_le (by omega)

end Assembly

/-- **Assembler, encoder and decoder agree.** What a text is assembled to can be written unless a
branch table in it has too many labels, so in any case if the text is not longer than that, and what
is written is read as the same instructions. -/
theorem assemble_encodes {text : String} {code : List Instruction}
    (assembled : assemble text = .ok code) :
    Except.FailsWith EncodeError.OfLength (Writing.concat Instruction.write code) ∧
      (text.length < UInt32.size → ∃ bytes, Writing.concat Instruction.write code = .ok bytes) ∧
      ∀ bytes, Writing.concat Instruction.write code = .ok bytes →
        Reader.untilEmpty Instruction.read (Cursor.ofBytes bytes) =
          .ok code ⟨bytes.length, []⟩ := by
  obtain ⟨left, taken⟩ := Assembly.instructions_eq_ok.mp assembled
  have each := Assembly.tabled_of_instructionsWithin taken
  refine ⟨?_, ?_, ?_⟩
  · exact Writing.concat_failsWith fun instruction listed =>
      Instruction.write_failsWith_iff.mpr (each instruction listed).1
  · intro short
    have whole : Writes (code.flatMap fun instruction => [instruction])
        (Writing.concat Instruction.write code) := by
      refine Writing.concat_writes fun instruction listed => Instruction.writes fun n counted => ?_
      calc n < (words text.toList).length := (each instruction listed).2 n counted
        _ ≤ text.length := length_words_le text.toList
        _ < UInt32.size := short
    cases written : Writing.concat Instruction.write code with
    | ok bytes => exact ⟨bytes, rfl⟩
    | error fault =>
        obtain ⟨faulty, listed, untabled⟩ := whole.fails_iff.mp ⟨fault, written⟩
        obtain ⟨instruction, inside, one⟩ := List.mem_flatMap.mp listed
        rw [List.mem_singleton.mp one] at untabled
        exact absurd (each instruction inside).1 untabled
  · intro bytes written
    have read : (Reader.untilEmpty Instruction.read).ReadsAll code bytes :=
      Reader.readsAll_untilEmpty
        (fun _ _ _ one => ⟨Instruction.readsBack one, Instruction.write_ne_nil one⟩) written
    have whole := read 0
    rwa [Nat.zero_add] at whole

/-- A block without a type, numbers with signs, and a branch table up to the next instruction. -/
def looseText : String :=
  "block  i32.const +5\ni64.const -1 br_table 0 1 0 f32.const nan if i64 end"

def looseCode : List Instruction :=
  [⟨"block", none, some (.blockType .empty)⟩, ⟨"const", some .i32, some (.int32 5)⟩,
    ⟨"const", some .i64, some (.int64 (-1))⟩, ⟨"br_table", none, some (.branchTable [0, 1] 0)⟩,
    ⟨"const", some .f32, some (.float32 0x7fc00000)⟩, ⟨"if", none, some (.blockType .i64)⟩,
    ⟨"end", none, none⟩]

/-- A text with odd spacing and a branch table. -/
theorem assemble_encodes_looseText :
    assemble looseText = .ok looseCode ∧ looseText.length < UInt32.size ∧
      ∃ bytes, Writing.concat Instruction.write looseCode = .ok bytes ∧
        Reader.untilEmpty Instruction.read (Cursor.ofBytes bytes) =
          .ok looseCode ⟨bytes.length, []⟩ := by
  have assembled : assemble looseText = .ok looseCode := by decide +kernel
  have short : looseText.length < UInt32.size := by decide +kernel
  obtain ⟨_, written, read⟩ := assemble_encodes assembled
  obtain ⟨bytes, written⟩ := written short
  exact ⟨assembled, short, bytes, written, read bytes written⟩

end WasmGas

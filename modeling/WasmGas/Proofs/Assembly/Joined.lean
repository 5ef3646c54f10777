import WasmGas.Proofs.Assembly.Encoded
import WasmGas.Proofs.Assembly.Printed

/-! # Texts that are assembled one after the other

An instruction takes the same words of a text whatever follows the text, if only what follows
begins with an instruction itself (`Assembly.instruction_followed`). The operands that may be left
out or repeated, the type of a block and the labels of a branch table, are the ones to look at:
they would take a word of what follows if a mnemonic could be read as one. So two texts with blanks
between them are assembled to what the one is assembled to and then the other (`assemble_append`).
-/

namespace WasmGas

/-- Any number of blanks between two texts keep their words apart. -/
theorem words_append_blanks (one : List Char) {blanks : List Char} (some : blanks ≠ [])
    (blank : ∀ c ∈ blanks, isBlank c = true) (other : List Char) :
    words (one ++ blanks ++ other) = words one ++ words other := by
  have skip : ∀ blanks : List Char, (∀ c ∈ blanks, isBlank c = true) →
      words (blanks ++ other) = words other := by
    intro blanks blank
    induction blanks with
    | nil => rfl
    | cons head tail skipped =>
        obtain ⟨cut, blank⟩ := List.forall_mem_cons.mp blank
        rw [List.cons_append, words, splitWords_cons_blank cut]
        exact skipped blank
  obtain ⟨head, tail, rfl⟩ := List.exists_cons_of_ne_nil some
  obtain ⟨cut, blank⟩ := List.forall_mem_cons.mp blank
  rw [List.append_assoc, List.cons_append, words_append_blank one cut, skip tail blank]

namespace Assembly

variable {mnemonic : String} {words rest following : List (List Char)}

/-! ## Operands -/

/-- What is taken of the words does not depend on what follows. -/
theorem operand_followed {α : Type} {read? : List Char → Option α} {a : α}
    (taken : operand mnemonic read? words = .ok a rest) (following : List (List Char)) :
    operand mnemonic read? (words ++ following) = .ok a (rest ++ following) := by
  obtain ⟨word, rfl, read⟩ := operand_eq_ok.mp taken
  exact operand_eq_ok.mpr ⟨word, rfl, read⟩

/-- A block whose type was left out does without one as well in front of an instruction. -/
theorem blockType_followed {type : ValueType} (taken : blockType words = .ok type rest)
    (ready : Ready following) : blockType (words ++ following) = .ok type (rest ++ following) := by
  cases words with
  | nil =>
      cases taken
      cases following with
      | nil => rfl
      | cons word others =>
          obtain ⟨operation, known⟩ := ready word rfl
          simp only [blockType, List.nil_append, ofName?_eq_none known]
  | cons word others =>
      unfold blockType at taken ⊢
      simp only [List.cons_append]
      cases named : ValueType.ofName? (String.ofList word) with
      | some other =>
          simp only [named] at taken
          cases taken
          rfl
      | none =>
          simp only [named] at taken
          cases taken
          rfl

/-- The labels end with a text as they end in front of an instruction. -/
theorem leadingLabels_followed {targets : List UInt32}
    (taken : leadingLabels words = (targets, rest)) (ready : Ready following) :
    leadingLabels (words ++ following) = (targets, rest ++ following) := by
  induction words generalizing targets with
  | nil =>
      cases taken
      exact leadingLabels_ready ready
  | cons word others further =>
      rw [leadingLabels] at taken
      rw [List.cons_append, leadingLabels]
      cases read : uint32? word with
      | none =>
          simp only [read] at taken ⊢
          cases taken
          rfl
      | some label =>
          simp only [read] at taken ⊢
          cases taken
          simp only [further rfl]

/-- An immediate of a single word. -/
theorem wrapped_followed {α : Type} {read? : List Char → Option α} (wrap : α → Immediate)
    {value : Immediate}
    (taken : (return wrap (← operand mnemonic read?) : Taker Immediate) words = .ok value rest)
    (following : List (List Char)) :
    (return wrap (← operand mnemonic read?) : Taker Immediate) (words ++ following) =
      .ok value (rest ++ following) := by
  obtain ⟨a, _, read, put⟩ := EStateM.bind_eq_ok.mp taken
  cases put
  exact EStateM.bind_eq_ok.mpr ⟨a, rest ++ following, operand_followed read following, rfl⟩

/-- **An immediate takes no word of an instruction that follows it.** -/
theorem immediate_followed {shape : ImmediateShape} {value : Immediate}
    (taken : immediate mnemonic shape words = .ok value rest) (ready : Ready following) :
    immediate mnemonic shape (words ++ following) = .ok value (rest ++ following) := by
  cases shape with
  | byte => exact wrapped_followed .byte taken following
  | index => exact wrapped_followed .index taken following
  | int32 => exact wrapped_followed .int32 taken following
  | int64 => exact wrapped_followed .int64 taken following
  | float32 => exact wrapped_followed .float32 taken following
  | float64 => exact wrapped_followed .float64 taken following
  | callIndirect => exact wrapped_followed (.callIndirect · 0) taken following
  | blockType =>
      obtain ⟨type, _, read, put⟩ := EStateM.bind_eq_ok.mp taken
      cases put
      exact EStateM.bind_eq_ok.mpr ⟨type, rest ++ following, blockType_followed read ready, rfl⟩
  | branchTable =>
      obtain ⟨targets, between, read, put⟩ := EStateM.bind_eq_ok.mp taken
      cases read
      have labelled := labels_of_leadingLabels
        (leadingLabels_followed (Prod.mk.eta (p := leadingLabels words)).symm ready)
      refine EStateM.bind_eq_ok.mpr ⟨_, _, labelled, ?_⟩
      cases last : (leadingLabels words).1.getLast? with
      | none =>
          simp only [last] at put
          cases put
      | some default =>
          simp only [last] at put
          cases put
          rfl
  | memory =>
      obtain ⟨flags, between, read, further⟩ := EStateM.bind_eq_ok.mp taken
      exact EStateM.bind_eq_ok.mpr
        ⟨flags, between ++ following, operand_followed read following,
          wrapped_followed (.memory flags) further following⟩

/-! ## Instructions -/

variable {word : List Char} {code others : List Instruction}

/-- **An instruction takes no word of an instruction that follows it.** -/
theorem instruction_followed {found : Instruction}
    (taken : instruction word words = .ok found rest) (ready : Ready following) :
    instruction word (words ++ following) = .ok found (rest ++ following) := by
  obtain ⟨operation, row, name, qualifier, immediate⟩ := exists_of_instruction taken
  obtain ⟨_, _, _⟩ := found
  cases name
  cases qualifier
  obtain ⟨bare, none, rfl⟩ | ⟨shape, value, shaped, held, read⟩ := immediate
  · cases none
    exact instruction_bare row bare _
  · cases held
    exact instruction_cons row shaped (immediate_followed read ready)

/-- The instructions of some words, and then those of the words that follow. -/
theorem instructionsWithin_followed {limit further : Nat} {left : List (List Char)}
    (taken : instructionsWithin limit words = .ok code []) (ready : Ready following)
    (next : instructionsWithin further following = .ok others left) :
    instructionsWithin (code.length + further) (words ++ following) =
      .ok (code ++ others) left := by
  induction limit generalizing words code with
  | zero =>
      cases taken
      rwa [List.length_nil, Nat.zero_add]
  | succ limit append =>
      cases words with
      | nil =>
          cases taken
          rwa [List.length_nil, Nat.zero_add]
      | cons word words =>
          obtain ⟨first, code, between, one, behind, rfl⟩ := instructionsWithin_cons_eq_ok.mp taken
          rw [List.length_cons, Nat.add_right_comm]
          exact instructionsWithin_cons_eq_ok.mpr
            ⟨first, code ++ others, _, instruction_followed one ready, append behind, rfl⟩

/-- A limit that is not below the number of words is none: all words are taken within it if they
are within another limit, or if that one is not below their number either. -/
theorem instructionsWithin_of_length_le {limit enough : Nat}
    (taken : instructionsWithin limit words = .ok code rest)
    (whole : rest = [] ∨ words.length ≤ limit) (long : words.length ≤ enough) :
    instructionsWithin enough words = .ok code [] := by
  induction limit generalizing words code enough with
  | zero =>
      cases taken
      have none : rest = [] := whole.elim id fun short =>
        List.length_eq_zero_iff.mp (Nat.le_zero.mp short)
      rw [none]
      exact instructionsWithin_nil enough
  | succ limit same =>
      cases words with
      | nil =>
          cases taken
          exact instructionsWithin_nil enough
      | cons word words =>
          obtain ⟨first, code, between, one, behind, rfl⟩ := instructionsWithin_cons_eq_ok.mp taken
          rw [List.length_cons] at whole long
          obtain ⟨enough, rfl⟩ : ∃ less, enough = less + 1 :=
            Nat.exists_eq_add_one.mpr (Nat.zero_lt_of_lt long)
          have shorter := (tabled_of_instruction one).2.1.length_le
          have further := same behind
            (whole.imp_right fun many => shorter.trans (Nat.le_of_succ_le_succ many))
            (shorter.trans (Nat.le_of_succ_le_succ long))
          exact instructionsWithin_cons_eq_ok.mpr ⟨first, code, between, one, further, rfl⟩

/-- **Words are assembled if all of them are taken,** and how many instructions may be taken does
not matter. -/
theorem instructions_eq_ok_iff :
    instructions words = .ok code ↔ ∃ limit, instructionsWithin limit words = .ok code [] := by
  rw [instructions_eq_ok]
  constructor
  · rintro ⟨left, taken⟩
    exact ⟨_, instructionsWithin_of_length_le taken (Or.inr le_rfl) le_rfl⟩
  · rintro ⟨limit, taken⟩
    exact ⟨[], instructionsWithin_of_length_le taken (Or.inl rfl) le_rfl⟩

/-- What is assembled begins with an instruction. -/
theorem ready_of_instructions (assembled : instructions words = .ok code) : Ready words := by
  obtain ⟨limit, taken⟩ := instructions_eq_ok.mp assembled
  cases words with
  | nil => exact ready_nil
  | cons word words =>
      obtain ⟨first, _, _, one, _, _⟩ := instructionsWithin_cons_eq_ok.mp taken
      obtain ⟨operation, row, _⟩ := exists_of_instruction one
      rintro _ ⟨⟩
      exact ⟨operation, row⟩

end Assembly

/-- **Texts are assembled one after the other.** Two texts with blanks between them are assembled to
what the one is assembled to and then the other: the instructions of the first text take its words
and leave those of the second one. -/
theorem assemble_append {one blanks other : String} {code others : List Instruction}
    (first : assemble one = .ok code) (second : assemble other = .ok others)
    (apart : blanks ≠ "") (blank : ∀ c ∈ blanks.toList, isBlank c = true) :
    assemble (one ++ blanks ++ other) = .ok (code ++ others) ∧
      Assembly.instructionsWithin code.length (words (one ++ blanks ++ other).toList) =
        .ok code (words other.toList) := by
  have some : blanks.toList ≠ [] := fun none => apart (String.toList_eq_nil_iff.mp none)
  have cut : words (one ++ blanks ++ other).toList = words one.toList ++ words other.toList := by
    rw [String.toList_append, String.toList_append]
    exact words_append_blanks one.toList some blank other.toList
  have ready := Assembly.ready_of_instructions second
  obtain ⟨_, taken⟩ := Assembly.instructions_eq_ok_iff.mp first
  obtain ⟨_, further⟩ := Assembly.instructions_eq_ok_iff.mp second
  rw [assemble, cut]
  constructor
  · exact Assembly.instructions_eq_ok_iff.mpr
      ⟨_, Assembly.instructionsWithin_followed taken ready further⟩
  · have none : Assembly.instructionsWithin 0 (words other.toList) =
        .ok [] (words other.toList) := rfl
    have left := Assembly.instructionsWithin_followed taken ready none
    rwa [Nat.add_zero, List.append_nil] at left

/-- A branch table that is open for labels and a block without a type, each in front of a mnemonic
that begins like a type. -/
theorem assemble_append_openEnded :
    assemble "block br_table 0 1" =
        .ok [⟨"block", none, some (.blockType .empty)⟩,
          ⟨"br_table", none, some (.branchTable [0] 1)⟩] ∧
      assemble "i32.const 2 block" =
        .ok [⟨"const", some .i32, some (.int32 2)⟩, ⟨"block", none, some (.blockType .empty)⟩] ∧
      assemble ("block br_table 0 1" ++ "\t\u2003" ++ "i32.const 2 block") =
        .ok [⟨"block", none, some (.blockType .empty)⟩,
          ⟨"br_table", none, some (.branchTable [0] 1)⟩,
          ⟨"const", some .i32, some (.int32 2)⟩, ⟨"block", none, some (.blockType .empty)⟩] := by
  have first : assemble "block br_table 0 1" =
      .ok [⟨"block", none, some (.blockType .empty)⟩,
        ⟨"br_table", none, some (.branchTable [0] 1)⟩] := by
    decide +kernel
  have second : assemble "i32.const 2 block" =
      .ok [⟨"const", some .i32, some (.int32 2)⟩, ⟨"block", none, some (.blockType .empty)⟩] := by
    decide +kernel
  have blank : ∀ c ∈ "\t\u2003".toList, isBlank c = true :=
    List.all_eq_true.mp (by decide)
  exact ⟨first, second, (assemble_append first second (by decide) blank).1⟩

end WasmGas

import WasmGas.Proofs.Assembly.Mnemonics
import WasmGas.Proofs.Assembly.Takers
import WasmGas.Proofs.Float.ReadBack
import WasmGas.Proofs.Wire.WellFormed

/-! # Printed code assembles back

The words of an immediate are taken for just that immediate, and no word behind them with them, if
what follows is another instruction or nothing at all (`Assembly.immediate_words`): a mnemonic is
neither a label nor the name of a type. So instructions that are written one after the other are
found again (`Assembly.instructions_words`), and so they are in their texts (`assemble_text`). Two
things an immediate can hold are not in its text, and it has to do without them
(`Immediate.Plain`).
-/

namespace WasmGas

/-- An immediate whose text says everything about it. A not-a-number shows neither sign nor payload,
and the reserved byte of an indirect call is taken to be zero. -/
def Immediate.Plain : Immediate → Prop
  | float32 bits => FloatFormat.binary32.value bits.toNat ≠ .nan
  | float64 bits => FloatFormat.binary64.value bits.toNat ≠ .nan
  | callIndirect _ reserved => reserved = 0
  | _ => True

instance : (immediate : Immediate) → Decidable immediate.Plain
  | .float32 bits => inferInstanceAs (Decidable (FloatFormat.binary32.value bits.toNat ≠ .nan))
  | .float64 bits => inferInstanceAs (Decidable (FloatFormat.binary64.value bits.toNat ≠ .nan))
  | .callIndirect _ reserved => inferInstanceAs (Decidable (reserved = 0))
  | .byte _ | .index _ | .int32 _ | .int64 _ | .blockType _ | .branchTable _ _ | .memory _ _ =>
      inferInstanceAs (Decidable True)

def Instruction.Plain (instruction : Instruction) : Prop :=
  ∀ immediate ∈ instruction.immediate, immediate.Plain

instance (instruction : Instruction) : Decidable instruction.Plain :=
  inferInstanceAs (Decidable (∀ immediate ∈ instruction.immediate, immediate.Plain))

/-! ## Operands -/

namespace Assembly

/-- What comes next is an instruction, if anything does. -/
def Ready (words : List (List Char)) : Prop :=
  ∀ word ∈ words.head?, ∃ operation, operation? word = some operation

variable {rest : List (List Char)}

theorem ready_nil : Ready [] := nofun

/-- Where no label can follow, none is taken. -/
theorem leadingLabels_ready (ready : Ready rest) : leadingLabels rest = ([], rest) := by
  cases rest with
  | nil => rfl
  | cons word others =>
      obtain ⟨operation, known⟩ := ready word rfl
      rw [leadingLabels]
      simp only [uint32?_eq_none known]

/-- Labels are taken up to where no more of them can follow. -/
theorem leadingLabels_append (ready : Ready rest) (targets : List UInt32) :
    leadingLabels (targets.map (naturalText ·.toNat) ++ rest) = (targets, rest) := by
  induction targets with
  | nil => exact leadingLabels_ready ready
  | cons target others taken =>
      rw [List.map_cons, List.cons_append, leadingLabels]
      simp only [uint32?_text, taken]

/-- The labels of a branch table are all that lead. -/
theorem labels_of_leadingLabels {words : List (List Char)} {targets : List UInt32}
    (taken : leadingLabels words = (targets, rest)) : labels words = .ok targets rest := by
  simp only [labels, taken]

/-- **The words of an immediate are taken for that immediate.** -/
theorem immediate_words {value : Immediate} (plain : value.Plain) (mnemonic : String)
    (ready : Ready rest) :
    immediate mnemonic value.shape (value.words ++ rest) = .ok value rest := by
  cases value with
  | byte n => exact operand_cons (uint8?_text n) .byte rest
  | index n => exact operand_cons (uint32?_text n) .index rest
  | int32 i => exact operand_cons (int32?_text i) .int32 rest
  | int64 i => exact operand_cons (int64?_text i) .int64 rest
  | float32 bits => exact operand_cons (float32?_text plain) .float32 rest
  | float64 bits => exact operand_cons (float64?_text plain) .float64 rest
  | blockType type =>
      have known : ValueType.ofName? (String.ofList type.name.toList) = some type := by
        cases type <;> decide
      refine EStateM.bind_eq_ok.mpr ⟨type, rest, ?_, rfl⟩
      change blockType (type.name.toList :: rest) = _
      unfold blockType
      simp only [known]
  | branchTable targets default =>
      have taken := leadingLabels_append ready (targets ++ [default])
      refine EStateM.bind_eq_ok.mpr ⟨targets ++ [default], rest, labels_of_leadingLabels taken, ?_⟩
      · simp only [List.getLast?_append, List.getLast?_singleton, List.dropLast_concat]
        rfl
  | callIndirect typeIndex reserved =>
      obtain rfl : reserved = 0 := plain
      exact operand_cons (uint32?_text typeIndex) (.callIndirect · 0) rest
  | memory flags offset =>
      refine EStateM.bind_eq_ok.mpr ⟨flags, naturalText offset.toNat :: rest, ?_, ?_⟩
      · exact operand_eq_ok.mpr ⟨_, rfl, uint32?_text flags⟩
      · exact operand_cons (uint32?_text offset) (.memory flags) rest

end Assembly

/-! ## Instructions -/

namespace Instruction

variable {instruction : Instruction}

/-- The row of an instruction is named by its mnemonic. -/
theorem Tabled.exists_row (tabled : instruction.Tabled) :
    ∃ operation, Assembly.operation? instruction.mnemonic.toList = some operation ∧
      operation.name = instruction.name ∧ operation.qualifier = instruction.qualifier ∧
      operation.shape? = instruction.immediate.map Immediate.shape := by
  obtain ⟨operation, row, shaped⟩ := Option.map_eq_some_iff.mp tabled
  obtain ⟨listed, qualifier, name⟩ := Operation.ofMnemonic?_eq_some_iff.mp row
  refine ⟨operation, ?_, name, qualifier, shaped⟩
  apply Assembly.operation?_eq_some_iff.mpr
  rw [Operation.mnemonic, name, qualifier]
  exact ⟨listed, rfl⟩

/-- No label can follow where an instruction begins. -/
theorem Tabled.ready (tabled : instruction.Tabled) (rest : List (List Char)) :
    Assembly.Ready (instruction.words ++ rest) := by
  obtain ⟨operation, row, _⟩ := tabled.exists_row
  rintro _ ⟨⟩
  exact ⟨operation, row⟩

/-- The words of an instruction behind its mnemonic. -/
def operands (instruction : Instruction) : List (List Char) :=
  (instruction.immediate.map Immediate.words).getD []

/-- An instruction is assembled from its own words, whatever instruction follows. -/
theorem Tabled.instruction_operands (tabled : instruction.Tabled) (plain : instruction.Plain)
    {rest : List (List Char)} (ready : Assembly.Ready rest) :
    Assembly.instruction instruction.mnemonic.toList (instruction.operands ++ rest) =
      .ok instruction rest := by
  obtain ⟨operation, row, name, qualifier, shaped⟩ := tabled.exists_row
  obtain ⟨_, _, immediate⟩ := instruction
  cases name
  cases qualifier
  cases immediate with
  | none => exact Assembly.instruction_bare row shaped rest
  | some value =>
      have bare : value.Plain := plain value rfl
      exact Assembly.instruction_cons row shaped (Assembly.immediate_words bare _ ready)

end Instruction

namespace Assembly

/-- Instructions are assembled from their own words. -/
theorem instructionsWithin_words {code : List Instruction}
    (tabled : ∀ instruction ∈ code, instruction.Tabled)
    (plain : ∀ instruction ∈ code, instruction.Plain) {limit : Nat} (enough : code.length ≤ limit) :
    instructionsWithin limit (code.flatMap Instruction.words) = .ok code [] := by
  induction code generalizing limit with
  | nil => exact instructionsWithin_nil limit
  | cons head tail taken =>
      obtain ⟨one, others⟩ := List.forall_mem_cons.mp tabled
      obtain ⟨bare, plain⟩ := List.forall_mem_cons.mp plain
      obtain ⟨limit, rfl⟩ : ∃ less, limit = less + 1 := Nat.exists_eq_add_one.mpr (by
        rw [List.length_cons] at enough
        omega)
      have ready : Ready (tail.flatMap Instruction.words) := by
        cases tail with
        | nil => exact ready_nil
        | cons next _ => exact (others next List.mem_cons_self).ready _
      have further := taken others plain (Nat.le_of_succ_le_succ enough)
      exact instructionsWithin_cons_eq_ok.mpr
        ⟨head, tail, _, one.instruction_operands bare ready, further, rfl⟩

/-- **Instructions are found again in their words.** -/
theorem instructions_words {code : List Instruction}
    (tabled : ∀ instruction ∈ code, instruction.Tabled)
    (plain : ∀ instruction ∈ code, instruction.Plain) :
    instructions (code.flatMap Instruction.words) = .ok code := by
  have enough : code.length ≤ (code.flatMap Instruction.words).length := by
    have counts : code.length = (code.map fun instruction => instruction.words.length).length :=
      (List.length_map _).symm
    rw [List.length_flatMap, counts]
    apply List.length_le_sum_of_one_le
    intro length listed
    obtain ⟨instruction, _, rfl⟩ := List.mem_map.mp listed
    exact Nat.le_add_left 1 _
  exact instructions_eq_ok.mpr ⟨[], instructionsWithin_words tabled plain enough⟩

end Assembly

/-! ## Texts -/

theorem isBlank_of_isDigit {c : Char} (digit : c.isDigit = true) : isBlank c = false := by
  have range : 48 ≤ c.toNat ∧ c.toNat ≤ 57 := by
    simpa [Char.isDigit, UInt32.le_iff_toNat_le] using digit
  simp only [isBlank, Bool.or_eq_false_iff, Bool.and_eq_false_iff, decide_eq_false_iff_not,
    beq_eq_false_iff_ne]
  omega

theorem isWord_naturalText (n : Nat) : IsWord (naturalText n) where
  ne_nil := naturalText_ne_nil n
  noBlank _ listed := isBlank_of_isDigit (isDigit_of_mem_naturalText listed)

theorem IsWord.cons {word : List Char} {c : Char} (is : IsWord word) (noBlank : isBlank c = false) :
    IsWord (c :: word) where
  ne_nil := List.cons_ne_nil c word
  noBlank := List.forall_mem_cons.mpr ⟨noBlank, is.noBlank⟩

/-- A number with its sign is a word. -/
theorem isWord_integerText (i : Int) : IsWord (integerText i) := by
  rw [integerText]
  split
  · exact (isWord_naturalText i.natAbs).cons (by decide)
  · exact isWord_naturalText i.natAbs

/-- Digits with a point among them are a word. -/
theorem isWord_positional (n places : Nat) : IsWord (positional n places) := by
  obtain ⟨fraction, _, digits, _, written⟩ := exists_positional_eq n places
  have whole := isWord_naturalText (n / 10 ^ places)
  rw [written]
  split
  · exact whole
  · constructor
    · exact List.append_ne_nil_of_left_ne_nil whole.ne_nil _
    · have behind : ∀ c ∈ fraction, isBlank c = false :=
        fun c listed => isBlank_of_isDigit (digits c listed)
      exact List.forall_mem_append.mpr
        ⟨whole.noBlank, List.forall_mem_cons.mpr ⟨by decide, behind⟩⟩

/-- The text of a float is a word. -/
theorem FloatFormat.isWord_text (format : FloatFormat) (bits : Nat) :
    IsWord (format.text bits) := by
  have signed {negative : Bool} {magnitude : List Char} (is : IsWord magnitude) :
      IsWord (signedText negative magnitude) := by
    cases negative with
    | true => exact is.cons (by decide)
    | false => exact is
  have nan : IsWord "NaN".toList := by decide
  unfold text
  cases format.value bits with
  | nan => exact nan
  | infinity negative => exact signed (by decide)
  | finite negative significand exponent =>
      apply signed
      unfold shortest
      split
      · decide
      · exact isWord_positional _ _

/-- What is written of an immediate is words. -/
theorem Immediate.isWord_of_mem_words {value : Immediate} {word : List Char}
    (listed : word ∈ value.words) : IsWord word := by
  cases value with
  | byte n => exact List.mem_singleton.mp listed ▸ isWord_naturalText n.toNat
  | index n => exact List.mem_singleton.mp listed ▸ isWord_naturalText n.toNat
  | int32 i => exact List.mem_singleton.mp listed ▸ isWord_integerText i.toInt
  | int64 i => exact List.mem_singleton.mp listed ▸ isWord_integerText i.toInt
  | float32 bits => exact List.mem_singleton.mp listed ▸ FloatFormat.isWord_text _ bits.toNat
  | float64 bits => exact List.mem_singleton.mp listed ▸ FloatFormat.isWord_text _ bits.toNat
  | blockType type =>
      rw [List.mem_singleton.mp listed]
      cases type <;> decide
  | branchTable targets default =>
      obtain ⟨target, _, rfl⟩ := List.mem_map.mp listed
      exact isWord_naturalText target.toNat
  | callIndirect typeIndex reserved =>
      exact List.mem_singleton.mp listed ▸ isWord_naturalText typeIndex.toNat
  | memory flags offset =>
      rcases List.mem_pair.mp listed with rfl | rfl
      · exact isWord_naturalText flags.toNat
      · exact isWord_naturalText offset.toNat

namespace Instruction

variable {instruction : Instruction}

/-- What is written of an instruction is words. -/
theorem Tabled.isWord_of_mem_words (tabled : instruction.Tabled) {word : List Char}
    (listed : word ∈ instruction.words) : IsWord word := by
  rcases List.mem_cons.mp listed with rfl | listed
  · obtain ⟨operation, row, _⟩ := tabled.exists_row
    obtain ⟨inTable, mnemonic⟩ := Assembly.operation?_eq_some_iff.mp row
    rw [mnemonic]
    exact Operation.isWord_mnemonic inTable
  · cases held : instruction.immediate with
    | none =>
        rw [held] at listed
        cases listed
    | some value =>
        rw [held] at listed
        exact Immediate.isWord_of_mem_words listed

/-- The text of an instruction is cut into the words that it is put together from. -/
theorem Tabled.words_text (tabled : instruction.Tabled) :
    WasmGas.words instruction.text.toList = instruction.words := by
  rw [text, String.toList_ofList]
  exact words_intercalate fun _ => tabled.isWord_of_mem_words

end Instruction

/-- **Printed code assembles back.** -/
theorem assemble_text {code : List Instruction} {bytes : Bytes}
    (written : Writing.concat Instruction.write code = .ok bytes)
    (plain : ∀ instruction ∈ code, instruction.Plain) :
    assemble (" ".intercalate (code.map Instruction.text)) = .ok code := by
  have tabled : ∀ instruction ∈ code, instruction.Tabled := by
    intro instruction listed
    obtain ⟨part, one⟩ := Writing.exists_of_concat written instruction listed
    exact Instruction.tabled_of_write one
  have cut : words (" ".intercalate (code.map Instruction.text)).toList =
      code.flatMap Instruction.words := by
    rw [String.toList_intercalate]
    change words ([' '].intercalate _) = _
    rw [words_intercalate_eq_flatMap, List.map_map, List.flatMap_map]
    exact List.flatMap_congr fun instruction listed => (tabled instruction listed).words_text
  rw [assemble, cut]
  exact Assembly.instructions_words tabled plain

/-- A branch table and a block type in front of other instructions, and the floats that are furthest
from a plain decimal. -/
def printedCode : List Instruction :=
  [⟨"block", none, some (.blockType .empty)⟩, ⟨"br_table", none, some (.branchTable [0] 1)⟩,
    ⟨"if", none, some (.blockType .f32)⟩, ⟨"const", some .f32, some (.float32 0x80000000)⟩,
    ⟨"const", some .f64, some (.float64 0x7ff0000000000000)⟩,
    ⟨"const", some .f64, some (.float64 1)⟩,
    ⟨"const", some .i32, some (.int32 (-1))⟩, ⟨"call_indirect", none, some (.callIndirect 3 0)⟩,
    ⟨"store8", some .i64, some (.memory 0 4294967295)⟩, ⟨"end", none, none⟩]

/-- Code with a branch table and floats that is read back from its text. -/
theorem assemble_text_printedCode :
    (∃ bytes, Writing.concat Instruction.write printedCode = .ok bytes) ∧
      (∀ instruction ∈ printedCode, instruction.Plain) ∧
      assemble (" ".intercalate (printedCode.map Instruction.text)) = .ok printedCode := by
  have written : Writing.concat Instruction.write printedCode = .ok [2, 64, 14, 1, 0, 1, 4, 125, 67,
      0, 0, 0, 128, 68, 0, 0, 0, 0, 0, 0, 240, 127, 68, 1, 0, 0, 0, 0, 0, 0, 0, 65, 127, 17, 3, 0,
      60, 0, 255, 255, 255, 255, 15, 11] := by
    decide +kernel
  have plain : ∀ instruction ∈ printedCode, instruction.Plain := by decide +kernel
  exact ⟨⟨_, written⟩, plain, assemble_text written plain⟩

end WasmGas

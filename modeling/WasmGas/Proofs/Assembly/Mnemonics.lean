import Mathlib.Data.List.TakeWhile
import WasmGas.Assembly.Assemble
import WasmGas.Assembly.Text
import WasmGas.Proofs.Text.Words
import WasmGas.Proofs.Wire.Reencode

/-! # Mnemonics

The names of operations and of qualifiers have no dot in them, so a mnemonic tells both, and the row
that it names is the one that it was put together from (`Assembly.operation?_eq_some_iff`). All of
them begin with a letter and none is the name of a type. So a mnemonic is never taken for an operand
that may be left out: neither for a label (`Assembly.uint32?_eq_none`) nor for the type of a block
(`Assembly.ofName?_eq_none`).
-/

namespace WasmGas

/-- A letter, and behind it neither dots nor blanks. -/
structure IsName (text : List Char) : Prop where
  letter : text.head?.any Char.isAlpha = true
  plain : text.all (fun c => c != '.' && !isBlank c) = true

instance (text : List Char) : Decidable (IsName text) :=
  decidable_of_iff (text.head?.any Char.isAlpha = true ∧
      text.all (fun c => c != '.' && !isBlank c) = true)
    ⟨fun ⟨letter, plain⟩ => ⟨letter, plain⟩, fun is => ⟨is.letter, is.plain⟩⟩

namespace IsName

variable {text : List Char}

theorem eq_cons (is : IsName text) :
    ∃ head tail, text = head :: tail ∧ head.isAlpha = true := by
  cases text with
  | nil => cases is.letter
  | cons head tail => exact ⟨head, tail, rfl, is.letter⟩

/-- There is no dot in a name. -/
theorem ne_dot (is : IsName text) : ∀ c ∈ text, (c != '.') = true := by
  intro c listed
  exact (Bool.and_eq_true_iff.mp (List.all_eq_true.mp is.plain c listed)).1

theorem isWord (is : IsName text) : IsWord text where
  ne_nil := by
    obtain ⟨head, tail, split, _⟩ := is.eq_cons
    rw [split]
    exact List.cons_ne_nil head tail
  noBlank c listed := by
    have both := Bool.and_eq_true_iff.mp (List.all_eq_true.mp is.plain c listed)
    exact (Bool.not_eq_true' _).mp both.2

/-- What a dot stands behind ends before it. -/
theorem span (is : IsName text) (rest : List Char) :
    (text ++ '.' :: rest).takeWhile (· != '.') = text ∧
      (text ++ '.' :: rest).dropWhile (· != '.') = '.' :: rest := by
  constructor
  · rw [List.takeWhile_append_of_pos is.ne_dot]
    exact List.append_nil text
  · rw [List.dropWhile_append_of_pos is.ne_dot]
    rfl

end IsName

theorem Qualifier.isName_name (qualifier : Qualifier) : IsName qualifier.name.toList := by
  cases qualifier <;> decide

/-- A word is the name of one qualifier at most. -/
theorem Qualifier.ofName?_eq_some_iff {word : String} {qualifier : Qualifier} :
    ofName? word = some qualifier ↔ word = qualifier.name := by
  constructor
  · intro found
    unfold ofName? at found
    have same := List.find?_some found
    exact (eq_of_beq same).symm
  · rintro rfl
    exact ofName?_name qualifier

/-- A letter is no digit. -/
theorem isDigit_eq_false_of_isAlpha {c : Char} (letter : c.isAlpha = true) :
    c.isDigit = false := by
  have below {bound : UInt32} (low : bound ≤ c.val) (beyond : ¬ bound ≤ '9'.val) :
      c.isDigit = false := by
    have high : ¬ c.val ≤ '9'.val := fun high => beyond (UInt32.le_trans low high)
    simp only [Char.isDigit, high, decide_false, Bool.and_false]
  rcases Bool.or_eq_true_iff.mp letter with upper | lower
  · exact below (of_decide_eq_true upper).1 (by decide)
  · exact below (of_decide_eq_true (Bool.and_eq_true_iff.mp lower).1) (by decide)

namespace Operation

/-- What the instructions of a row are written with. -/
def mnemonic (operation : Operation) : String :=
  Instruction.mnemonic ⟨operation.name, operation.qualifier, none⟩

theorem isName_name : ∀ operation ∈ all, IsName operation.name.toList := by decide +kernel

/-- No mnemonic is the name of a type. -/
theorem ofName?_mnemonic : ∀ operation ∈ all, ValueType.ofName? operation.mnemonic = none := by
  decide +kernel

variable {operation : Operation} {qualifier : Qualifier}

/-- Without a qualifier the mnemonic is the name. -/
theorem toList_mnemonic_of_none (bare : operation.qualifier = none) :
    operation.mnemonic.toList = operation.name.toList := by
  simp only [mnemonic, Instruction.mnemonic, bare]

/-- With a qualifier there is a dot before the name. -/
theorem toList_mnemonic_of_some (qualified : operation.qualifier = some qualifier) :
    operation.mnemonic.toList = qualifier.name.toList ++ '.' :: operation.name.toList := by
  simp only [mnemonic, Instruction.mnemonic, qualified, String.toList_append, List.append_assoc]
  rfl

/-- An operation is found by its qualifier and its name. -/
theorem ofMnemonic?_eq_some_iff {qualifier : Option Qualifier} {name : String} :
    ofMnemonic? qualifier name = some operation ↔
      operation ∈ all ∧ operation.qualifier = qualifier ∧ operation.name = name := by
  constructor
  · intro found
    have same := List.find?_some found
    simp only [Bool.and_eq_true, beq_iff_eq] at same
    exact ⟨List.mem_of_find?_eq_some found, same⟩
  · rintro ⟨row, rfl, rfl⟩
    exact ofMnemonic?_name row

/-- A mnemonic begins with a letter. -/
theorem mnemonic_eq_cons (row : operation ∈ all) :
    ∃ head tail, operation.mnemonic.toList = head :: tail ∧ head.isAlpha = true := by
  cases qualified : operation.qualifier with
  | none =>
      rw [toList_mnemonic_of_none qualified]
      exact (isName_name operation row).eq_cons
  | some qualifier =>
      obtain ⟨head, tail, split, letter⟩ := qualifier.isName_name.eq_cons
      rw [toList_mnemonic_of_some qualified, split]
      exact ⟨head, _, rfl, letter⟩

/-- A mnemonic is a word. -/
theorem isWord_mnemonic (row : operation ∈ all) : IsWord operation.mnemonic.toList := by
  have name := (isName_name operation row).isWord
  cases qualified : operation.qualifier with
  | none =>
      rw [toList_mnemonic_of_none qualified]
      exact name
  | some qualifier =>
      have front := qualifier.isName_name.isWord
      rw [toList_mnemonic_of_some qualified]
      constructor
      · exact List.append_ne_nil_of_left_ne_nil front.ne_nil _
      · exact List.forall_mem_append.mpr
          ⟨front.noBlank, List.forall_mem_cons.mpr ⟨by decide, name.noBlank⟩⟩

end Operation

namespace Assembly

variable {word : List Char} {operation : Operation}

/-- **A mnemonic names the row that it is written for, and no other word names a row.** -/
theorem operation?_eq_some_iff :
    operation? word = some operation ↔
      operation ∈ Operation.all ∧ word = operation.mnemonic.toList := by
  constructor
  · intro found
    have parts := List.takeWhile_append_dropWhile (p := (· != '.')) (l := word)
    unfold operation? at found
    split at found
    · obtain ⟨row, bare, name⟩ := Operation.ofMnemonic?_eq_some_iff.mp found
      refine ⟨row, ?_⟩
      rw [Operation.toList_mnemonic_of_none bare, name, String.toList_ofList]
    · rename_i dot rest behind
      obtain ⟨qualifier, known, found⟩ := Option.bind_eq_some_iff.mp found
      obtain ⟨row, qualified, name⟩ := Operation.ofMnemonic?_eq_some_iff.mp found
      have isDot : dot = '.' := by
        have stop := List.head?_dropWhile_not (· != '.') word
        rw [behind] at stop
        simpa using stop
      refine ⟨row, ?_⟩
      rw [behind, isDot] at parts
      rw [Operation.toList_mnemonic_of_some qualified, name,
        ← Qualifier.ofName?_eq_some_iff.mp known, String.toList_ofList, String.toList_ofList,
        parts]
  · rintro ⟨row, rfl⟩
    have plain := Operation.isName_name operation row
    cases qualified : operation.qualifier with
    | none =>
        have nothing : operation.name.toList.dropWhile (· != '.') = [] :=
          List.dropWhile_eq_nil_iff.mpr plain.ne_dot
        rw [Operation.toList_mnemonic_of_none qualified, operation?, nothing]
        simp only [String.ofList_toList]
        exact Operation.ofMnemonic?_eq_some_iff.mpr ⟨row, qualified, rfl⟩
    | some qualifier =>
        obtain ⟨front, behind⟩ := qualifier.isName_name.span operation.name.toList
        rw [Operation.toList_mnemonic_of_some qualified, operation?, front, behind]
        simp only [String.ofList_toList, Qualifier.ofName?_name]
        exact Operation.ofMnemonic?_eq_some_iff.mpr ⟨row, qualified, rfl⟩

/-- A mnemonic is not read as a number. -/
theorem uint32?_eq_none (known : operation? word = some operation) : uint32? word = none := by
  obtain ⟨row, rfl⟩ := operation?_eq_some_iff.mp known
  obtain ⟨head, tail, split, letter⟩ := Operation.mnemonic_eq_cons row
  have noDigit : head.isDigit = false := isDigit_eq_false_of_isAlpha letter
  have unread : natural? (head :: tail) = none := by
    apply if_neg
    rintro ⟨_, digits⟩
    rw [List.all_cons, noDigit] at digits
    cases digits
  rw [split]
  unfold uint32? naturalBelow?
  split
  · rename_i rest same
    cases same
    exact absurd letter (by decide)
  · simp only [unread, Option.filter_none, Option.map_none]

/-- A mnemonic is not read as a type. -/
theorem ofName?_eq_none (known : operation? word = some operation) :
    ValueType.ofName? (String.ofList word) = none := by
  obtain ⟨row, rfl⟩ := operation?_eq_some_iff.mp known
  rw [String.ofList_toList]
  exact Operation.ofName?_mnemonic operation row

end Assembly

end WasmGas

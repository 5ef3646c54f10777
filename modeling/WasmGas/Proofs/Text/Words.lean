import Mathlib.Logic.Basic
import WasmGas.Text.Words

/-! # Texts put side by side

A blank between two texts keeps their words apart, so the words of the whole are those of the one
text and then those of the other (`words_append_blank`). A text without a blank is a word itself,
and words that are joined with spaces are found again (`words_intercalate`).
-/

namespace WasmGas

/-- A blank ends a word that is empty so far. -/
theorem splitWords_cons_blank {c : Char} (blank : isBlank c = true) (rest : List Char) :
    splitWords (c :: rest) = ([], words rest) := by
  simp only [splitWords, blank, ↓reduceIte, words]

/-- A blank ends the word before it. -/
theorem splitWords_append_blank (one : List Char) {c : Char} (blank : isBlank c = true)
    (other : List Char) :
    splitWords (one ++ c :: other) = ((splitWords one).1, (splitWords one).2 ++ words other) := by
  induction one with
  | nil => exact splitWords_cons_blank blank other
  | cons head tail split =>
      simp only [List.cons_append, splitWords, split]
      by_cases cut : isBlank head = true
      · simp only [cut, ↓reduceIte, consWord]
        split <;> rfl
      · simp only [cut, Bool.false_eq_true, ↓reduceIte]

/-- **Texts with a blank between them have their words one after the other.** -/
theorem words_append_blank (one : List Char) {c : Char} (blank : isBlank c = true)
    (other : List Char) : words (one ++ c :: other) = words one ++ words other := by
  rw [words, splitWords_append_blank one blank, words.eq_def one]
  simp only [consWord]
  split <;> rfl

/-- A word more does not count if it is empty. -/
theorem length_consWord_le (first : List Char) (others : List (List Char)) :
    (consWord first others).length ≤ first.length + others.length := by
  rw [consWord]
  split
  · exact Nat.le_add_left _ _
  · have some := List.length_pos_iff.mpr ‹¬ first = []›
    rw [List.length_cons]
    omega

/-- A text has no more words than characters. -/
theorem length_words_le (text : List Char) : (words text).length ≤ text.length := by
  have few : (splitWords text).1.length + (splitWords text).2.length ≤ text.length := by
    induction text with
    | nil => exact Nat.le_refl 0
    | cons head tail few =>
        have cons := length_consWord_le (splitWords tail).1 (splitWords tail).2
        rw [splitWords]
        by_cases cut : isBlank head = true
        · simp only [cut, ↓reduceIte, List.length_nil, List.length_cons]
          omega
        · simp only [cut, Bool.false_eq_true, ↓reduceIte, List.length_cons]
          omega
  exact Nat.le_trans (length_consWord_le _ _) few

/-- A word of a text. -/
structure IsWord (word : List Char) : Prop where
  ne_nil : word ≠ []
  noBlank : ∀ c ∈ word, isBlank c = false

instance (word : List Char) : Decidable (IsWord word) :=
  decidable_of_iff (word ≠ [] ∧ word.all (!isBlank ·) = true) <| by
    simp only [List.all_eq_true, Bool.not_eq_true']
    exact ⟨fun both => ⟨both.1, both.2⟩, fun is => ⟨is.ne_nil, is.noBlank⟩⟩

/-- Without a blank there is a single word. -/
theorem splitWords_of_noBlank {word : List Char} (noBlank : ∀ c ∈ word, isBlank c = false) :
    splitWords word = (word, []) := by
  induction word with
  | nil => rfl
  | cons head tail split =>
      obtain ⟨one, others⟩ := List.forall_mem_cons.mp noBlank
      simp only [splitWords, split others, one, Bool.false_eq_true, ↓reduceIte]

theorem IsWord.words_eq {word : List Char} (is : IsWord word) : words word = [word] := by
  rw [words, splitWords_of_noBlank is.noBlank]
  exact if_neg is.ne_nil

/-- Texts with blanks between them have the words of each. -/
theorem words_intercalate_eq_flatMap (texts : List (List Char)) :
    words ([' '].intercalate texts) = texts.flatMap words := by
  induction texts with
  | nil => rfl
  | cons head tail joined =>
      cases tail with
      | nil => simp
      | cons next others =>
          have apart : [' '].intercalate (head :: next :: others) =
              head ++ ' ' :: [' '].intercalate (next :: others) := by simp
          rw [apart, words_append_blank head (by decide), joined]
          rfl

/-- **Words that are joined with spaces are found again.** -/
theorem words_intercalate {found : List (List Char)} (each : ∀ word ∈ found, IsWord word) :
    words ([' '].intercalate found) = found := by
  rw [words_intercalate_eq_flatMap]
  induction found with
  | nil => rfl
  | cons head tail same =>
      obtain ⟨one, others⟩ := List.forall_mem_cons.mp each
      rw [List.flatMap_cons, one.words_eq, same others]
      rfl

end WasmGas

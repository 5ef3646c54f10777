import WasmGas.Price.Json
import WasmGas.Proofs.Text.Decimal

/-! # Texts and numbers in JSON

A text in quotes is read back whatever its characters are (`Json.string_quote`): each character is
read back from what stands for it, in front of anything (`Json.quoted_escape`), and what stands
for it never ends the text. An amount of gas is read back from its digits if no digit follows
(`Json.number_naturalText`).
-/

namespace WasmGas

namespace Json

/-- A control character as a code unit. -/
theorem codeUnit?_hexDigit {n : Nat} (control : n < 0x20) :
    codeUnit? '0' '0' (hexDigit (n / 16)) (hexDigit n) = some n := by
  have each : ∀ n < 0x20, codeUnit? '0' '0' (hexDigit (n / 16)) (hexDigit n) = some n := by decide
  exact each n control

/-- What stands for a character: a letter behind a backslash, the code of a control character, or
the character itself. -/
theorem escape_cases (c : Char) :
    (∃ letter, escape c = ['\\', letter] ∧ unescape? letter = some c) ∨
      (c.toNat < 0x20 ∧
        escape c = ['\\', 'u', '0', '0', hexDigit (c.toNat / 16), hexDigit c.toNat]) ∨
      (¬ c.toNat < 0x20 ∧ c ≠ '"' ∧ c ≠ '\\' ∧ escape c = [c]) := by
  unfold escape
  split_ifs with quote backslash backspace formFeed newLine carriageReturn tab control
  · exact .inl ⟨_, rfl, by rw [quote]; rfl⟩
  · exact .inl ⟨_, rfl, by rw [backslash]; rfl⟩
  · exact .inl ⟨_, rfl, by rw [backspace]; rfl⟩
  · exact .inl ⟨_, rfl, by rw [formFeed]; rfl⟩
  · exact .inl ⟨_, rfl, by rw [newLine]; rfl⟩
  · exact .inl ⟨_, rfl, by rw [carriageReturn]; rfl⟩
  · exact .inl ⟨_, rfl, by rw [tab]; rfl⟩
  · exact .inr (.inl ⟨control, rfl⟩)
  · exact .inr (.inr ⟨control, quote, backslash, rfl⟩)

/-- **A character is read back from what stands for it between quotes.** -/
theorem quoted_escape (c : Char) (rest : List Char) :
    quoted (escape c ++ rest) = andThen c (quoted rest) := by
  rcases escape_cases c with ⟨letter, written, read⟩ | ⟨control, written⟩ | ⟨plain, noQuote,
    noBackslash, written⟩
  · have noCode : letter ≠ 'u' := by
      rintro rfl
      cases read
    rw [written]
    change quoted ('\\' :: letter :: rest) = _
    rw [quoted.eq_4, read]
    · rfl
    · intro _ _ _ _ _ code
      exact absurd code noCode
  · -- No surrogate is a control character.
    have noHigh : isHighSurrogate c.toNat = false := by
      simp only [isHighSurrogate, Bool.and_eq_false_iff, decide_eq_false_iff_not]
      omega
    have noLow : isLowSurrogate c.toNat = false := by
      simp only [isLowSurrogate, Bool.and_eq_false_iff, decide_eq_false_iff_not]
      omega
    rw [written]
    change quoted ('\\' :: 'u' :: '0' :: '0' :: hexDigit (c.toNat / 16) :: hexDigit c.toNat ::
      rest) = _
    rw [quoted]
    simp only [codeUnit?_hexDigit control, Option.bind_eq_bind, Option.bind_some, noHigh, noLow,
      Bool.false_eq_true, ↓reduceIte, Char.ofNat_toNat]
  · rw [written]
    change quoted (c :: rest) = _
    rw [quoted]
    · rw [if_neg plain]
    · exact noQuote
    · intro _ _ _ _ _ same
      exact absurd same noBackslash
    · intro _ _ same
      exact absurd same noBackslash

/-- A text that was escaped is read up to the quote behind it. -/
theorem quoted_flatMap_escape (text rest : List Char) :
    quoted (text.flatMap escape ++ '"' :: rest) = some (text, rest) := by
  induction text with
  | nil => rfl
  | cons c text read =>
      rw [List.flatMap_cons, List.append_assoc, quoted_escape, read]
      rfl

/-- **Any text is read back from its quotes.** -/
theorem string_quote (text : String) (rest : List Char) :
    string (quote text ++ rest) = some (text, rest) := by
  have split : quote text ++ rest = '"' :: (text.toList.flatMap escape ++ '"' :: rest) := by
    simp only [quote, List.cons_append, List.append_assoc, List.nil_append]
  rw [split, string, quoted_flatMap_escape]
  simp only [Option.map_some, String.ofList_toList]

/-! ## Numbers -/

/-- Only the digits of zero begin with a zero. -/
theorem naturalText_head_ne_zero {n : Nat} (some : 0 < n) :
    ∃ head tail, naturalText n = head :: tail ∧ head ≠ '0' := by
  induction n using Nat.strong_induction_on with
  | _ n smaller =>
      rw [naturalText, Nat.toDigits_eq_if (by decide)]
      by_cases single : n < 10
      · have digit : ∀ n < 10, 0 < n → n.digitChar ≠ '0' := by decide
        rw [if_pos single]
        exact ⟨_, [], rfl, digit n single some⟩
      · obtain ⟨head, tail, front, notZero⟩ := smaller (n / 10) (by omega) (by omega)
        rw [naturalText] at front
        rw [if_neg single, front]
        exact ⟨head, _, rfl, notZero⟩

/-- No digit comes next. -/
def EndsNumber (rest : List Char) : Prop := ∀ c ∈ rest.head?, c.isDigit = false

/-- No digits are left where a number ends. -/
theorem EndsNumber.span {rest : List Char} (ends : EndsNumber rest) :
    rest.takeWhile Char.isDigit = [] ∧ rest.dropWhile Char.isDigit = rest := by
  cases rest with
  | nil => exact ⟨rfl, rfl⟩
  | cons c others =>
      have noDigit : c.isDigit = false := ends c rfl
      exact ⟨List.takeWhile_cons_of_neg (by rw [noDigit]; decide),
        List.dropWhile_cons_of_neg (by rw [noDigit]; decide)⟩

/-- **An amount of gas is read back from its digits.** -/
theorem number_naturalText (gas : Gas) {rest : List Char} (ends : EndsNumber rest) :
    number (naturalText gas.units ++ rest) = some (gas, rest) := by
  by_cases zero : gas = 0
  · rw [zero]
    rfl
  · have some : 0 < gas.units := Nat.pos_of_ne_zero fun none => zero (Gas.ext none)
    obtain ⟨head, tail, digits, notZero⟩ := naturalText_head_ne_zero some
    have all : ∀ c ∈ naturalText gas.units, c.isDigit = true := fun _ => isDigit_of_mem_naturalText
    have front :
        (naturalText gas.units ++ rest).takeWhile Char.isDigit = naturalText gas.units := by
      rw [List.takeWhile_append_of_pos all, ends.span.1, List.append_nil]
    have behind : (naturalText gas.units ++ rest).dropWhile Char.isDigit = rest := by
      rw [List.dropWhile_append_of_pos all, ends.span.2]
    have fits : Gas.ofNat? gas.units = .some gas := dif_pos gas.units_le
    have notAlone : ∀ others, head :: tail ++ rest = '0' :: others → False := by
      rintro others ⟨⟩
      exact notZero rfl
    rw [← digits] at notAlone
    rw [number.eq_2 _ notAlone, front, behind, natural?_naturalText, Option.bind_some, fits]
    rfl

end Json

end WasmGas

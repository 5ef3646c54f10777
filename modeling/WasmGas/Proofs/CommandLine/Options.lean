import WasmGas.CommandLine.Arguments
import WasmGas.Proofs.Except
import Mathlib.Data.List.TakeWhile

/-! # What one argument says

An argument that begins with a hyphen is the flag for the log, a setting, or a setting with its
value; letters can share a hyphen. `Arguments.Names` and `Arguments.Gives` say how these are
written. An argument that is written so is understood so (`Arguments.option_of_gives`,
`Arguments.option_of_names`), and none is understood that is not (`Arguments.means_or_letters`).
-/

namespace WasmGas

namespace Arguments

/-! ## How things are written -/

/-- One thing that arguments can say. -/
inductive Item where
  /-- That the log is asked for. -/
  | log
  | value (setting : Setting) (value : String)
  | input (path : String)

/-- The flag that asks for the log. -/
def IsVerbose (argument : String) : Prop := argument = "-v" ∨ argument = "--verbose"

/-- How a setting is named. -/
inductive Names : Setting → String → Prop
  | word (setting : Setting) : Names setting ("--" ++ setting.word)
  | letter : Names .output "-o"

/-- How a setting is named together with its value. -/
inductive Gives : Setting → String → String → Prop
  | equals {setting : Setting} {name : String} (value : String) :
      Names setting name → Gives setting value (name ++ "=" ++ value)
  | behind {value : String} : value ≠ "" → value.toList.head? ≠ some '=' →
      Gives .output value ("-o" ++ value)

/-! ## The words for settings -/

variable {grammar : Grammar} {given next : Given} {understood : Understood} {setting : Setting}
  {argument : String}

/-- No setting is missing in the list of them. -/
theorem Setting.mem_all (setting : Setting) : setting ∈ all := by
  cases setting <;> decide

/-- A setting is found by its word. -/
theorem Setting.ofWord?_word (setting : Setting) : ofWord? setting.word = some setting := by
  cases setting <;> decide

/-- The word for a setting is none for a flag. -/
theorem Flag.ofWord?_settingWord (setting : Setting) : Flag.ofWord? setting.word = none := by
  cases setting <;> decide

/-- What is found by a word has that word. -/
theorem Setting.eq_of_ofWord? {name : String} (known : Setting.ofWord? name = some setting) :
    setting.word = name := by
  unfold ofWord? at known
  have found := List.find?_some known
  exact beq_iff_eq.mp found

theorem Flag.eq_of_ofWord? {name : String} {flag : Flag} (known : Flag.ofWord? name = some flag) :
    flag.word = name := by
  unfold ofWord? at known
  have found := List.find?_some known
  exact beq_iff_eq.mp found

/-- A flag that is found by a letter has that letter. -/
theorem Flag.eq_of_ofLetter? {letter : Char} {flag : Flag}
    (known : Flag.ofLetter? letter = some flag) : flag.letter = letter := by
  unfold ofLetter? at known
  have found := List.find?_some known
  exact beq_iff_eq.mp found

/-- There is no equals sign in the word for a setting. -/
theorem Setting.ne_of_mem_word (setting : Setting) {c : Char} (listed : c ∈ setting.word.toList) :
    (c != '=') = true := by
  have free : (setting.word.toList.all (· != '=')) = true := by cases setting <;> decide
  exact List.all_eq_true.mp free c listed

/-- The word for a setting ends at the equals sign behind it. -/
theorem Setting.takeWhile_word (setting : Setting) (value : List Char) :
    (setting.word.toList ++ '=' :: value).takeWhile (· != '=') = setting.word.toList := by
  rw [List.takeWhile_append_of_pos fun c listed => setting.ne_of_mem_word listed,
    List.takeWhile_cons_of_neg (by decide), List.append_nil]

theorem Setting.dropWhile_word (setting : Setting) (value : List Char) :
    (setting.word.toList ++ '=' :: value).dropWhile (· != '=') = '=' :: value := by
  rw [List.dropWhile_append_of_pos fun c listed => setting.ne_of_mem_word listed,
    List.dropWhile_cons_of_neg (by decide)]

/-! ## What an argument does -/

/-- What an item adds to what was given before it. -/
def Given.note (given : Given) : Item → Except Stop Given
  | .log => if given.verbose then throw .misuse else return { given with verbose := true }
  | .value setting value => given.set setting value
  | .input path => given.place path

/-- The log can be asked for once. -/
theorem note_log_eq_ok :
    given.note .log = .ok next ↔ ¬ given.verbose = true ∧ { given with verbose := true } = next :=
  Except.check_eq_ok

/-- A word with a value behind an equals sign notes that value. -/
theorem word_equals (allowed : setting ∈ grammar.settings) (value : List Char) :
    word grammar given (setting.word.toList ++ '=' :: value) =
      (return .all (← given.note (.value setting (String.ofList value)))) := by
  unfold word
  simp only [setting.takeWhile_word, setting.dropWhile_word, String.ofList_toList,
    Flag.ofWord?_settingWord, Setting.ofWord?_word, allowed, not_true_eq_false, if_false]
  rfl

/-- A word alone waits for its value. -/
theorem word_name (allowed : setting ∈ grammar.settings) :
    word grammar given setting.word.toList = .ok (.awaiting given setting) := by
  have whole : setting.word.toList.takeWhile (· != '=') = setting.word.toList :=
    List.takeWhile_eq_self_iff.mpr fun c listed => setting.ne_of_mem_word listed
  have nothing : setting.word.toList.dropWhile (· != '=') = [] :=
    List.dropWhile_eq_nil_iff.mpr fun c listed => setting.ne_of_mem_word listed
  unfold word
  simp only [whole, nothing, String.ofList_toList, Flag.ofWord?_settingWord, Setting.ofWord?_word,
    allowed, not_true_eq_false, if_false]
  rfl

/-- The flag for the log notes that it was asked for. -/
theorem option_of_isVerbose (verbose : IsVerbose argument) :
    option grammar given argument = (return .all (← given.note .log)) := by
  rcases verbose with rfl | rfl
  · change letters grammar given ['v'] = _
    rfl
  · change word grammar given "verbose".toList = _
    rfl

/-- The letter for the output, with what is behind it. -/
theorem letters_output (allowed : .output ∈ grammar.settings) (behind : List Char) :
    letters grammar given ('o' :: behind) =
      match behind with
      | [] => return .awaiting given .output
      | '=' :: value => return .all (← given.note (.value .output (String.ofList value)))
      | value => return .all (← given.note (.value .output (String.ofList value))) := by
  have noFlag : Flag.ofLetter? 'o' = none := rfl
  have output : Setting.ofLetter? 'o' = some .output := rfl
  simp only [letters, noFlag, output, allowed, not_true_eq_false, if_false]
  rfl

/-- Behind a single hyphen there are letters. -/
theorem option_cons_of_ne {letter : Char} (short : letter ≠ '-') (behind : List Char)
    (spelled : argument.toList = '-' :: letter :: behind) :
    option grammar given argument = letters grammar given (letter :: behind) := by
  unfold option
  rw [spelled]
  split
  · rename_i same
    cases same
    exact absurd rfl short
  · rename_i same
    cases same
    rfl
  · rename_i same
    cases same

/-- Letters behind the one for the log, and the same ones without it. -/
theorem exists_letters {text : String} (more : text ≠ "") (short : text.toList.head? ≠ some '-') :
    ∃ letter behind, letter ≠ '-' ∧ ("-v" ++ text).toList = '-' :: 'v' :: letter :: behind ∧
      ("-" ++ text).toList = '-' :: letter :: behind := by
  cases spelled : text.toList with
  | nil => exact absurd (String.toList_inj.mp spelled) more
  | cons letter behind =>
      rw [spelled] at short
      refine ⟨letter, behind, fun same => short (congrArg some same), ?_, ?_⟩
      · rw [String.toList_append, spelled]
        rfl
      · rw [String.toList_append, spelled]
        rfl

/-- The letter for the log has the others behind it do what they do alone. -/
theorem option_letters {text : String} (more : text ≠ "") (short : text.toList.head? ≠ some '-') :
    option grammar given ("-v" ++ text) =
      given.note .log >>= fun next => option grammar next ("-" ++ text) := by
  obtain ⟨letter, behind, notLong, one, other⟩ := exists_letters more short
  rw [option_cons_of_ne (by decide) _ one]
  simp only [option_cons_of_ne notLong _ other]
  rfl

/-- A setting together with its value notes that value. -/
theorem option_of_gives {value : String} (allowed : setting ∈ grammar.settings)
    (gives : Gives setting value argument) :
    option grammar given argument = (return .all (← given.note (.value setting value))) := by
  cases gives with
  | equals value names =>
      cases names with
      | word =>
          have spelled : ("--" ++ setting.word ++ "=" ++ value).toList =
              '-' :: '-' :: (setting.word.toList ++ '=' :: value.toList) := by
            simp only [String.toList_append, List.append_assoc]
            rfl
          unfold option
          rw [spelled]
          change word grammar given _ = _
          rw [word_equals allowed, String.ofList_toList]
      | letter =>
          have spelled : ("-o" ++ "=" ++ value).toList = '-' :: 'o' :: '=' :: value.toList := by
            simp only [String.toList_append]
            rfl
          rw [option_cons_of_ne (by decide) _ spelled, letters_output allowed]
          simp only [String.ofList_toList]
  | behind filled apart =>
      have spelled : ("-o" ++ value).toList = '-' :: 'o' :: value.toList := by
        rw [String.toList_append]
        rfl
      rw [option_cons_of_ne (by decide) _ spelled, letters_output allowed]
      cases written : value.toList with
      | nil => exact absurd (String.toList_inj.mp written) filled
      | cons first others =>
          rw [written] at apart
          split
          · rename_i same
            cases same
          · rename_i same
            cases same
            exact absurd rfl apart
          · rw [← written, String.ofList_toList]

/-- A setting alone waits for its value. -/
theorem option_of_names (allowed : setting ∈ grammar.settings)
    (names : Names setting argument) :
    option grammar given argument = .ok (.awaiting given setting) := by
  cases names with
  | word =>
      have spelled : ("--" ++ setting.word).toList = '-' :: '-' :: setting.word.toList := by
        rw [String.toList_append]
        rfl
      unfold option
      rw [spelled]
      exact word_name allowed
  | letter =>
      have spelled : "-o".toList = ['-', 'o'] := rfl
      rw [option_cons_of_ne (by decide) _ spelled, letters_output allowed]
      rfl

/-! ## What an argument is -/

/-- Whether an argument is looked at as an option. -/
def IsFlagged (argument : String) : Prop := argument ≠ "--" ∧ isOption argument = true

/-- An option is a hyphen with something behind it. -/
theorem exists_of_isOption (flagged : isOption argument = true) :
    ∃ letter behind, argument.toList = '-' :: letter :: behind := by
  unfold isOption at flagged
  split at flagged
  · rename_i letter behind spelled
    exact ⟨letter, behind, spelled⟩
  · cases flagged

/-- Letters behind a hyphen are looked at as an option. -/
theorem isFlagged_of_short {letter : Char} {behind : List Char}
    (short : letter ≠ '-') (spelled : argument.toList = '-' :: letter :: behind) :
    IsFlagged argument := by
  refine ⟨?_, ?_⟩
  · rintro rfl
    cases spelled
    exact short rfl
  · unfold isOption
    rw [spelled]
    rfl

theorem isFlagged_of_word {text : List Char} (named : text ≠ [])
    (spelled : argument.toList = '-' :: '-' :: text) : IsFlagged argument := by
  refine ⟨?_, ?_⟩
  · rintro rfl
    cases spelled
    exact named rfl
  · unfold isOption
    rw [spelled]
    rfl

theorem IsVerbose.isFlagged (verbose : IsVerbose argument) :
    IsFlagged argument := by
  rcases verbose with rfl | rfl
  · exact ⟨by decide, rfl⟩
  · exact ⟨by decide, rfl⟩

/-- The name of a setting is looked at as an option, whatever is joined to it. -/
theorem Names.isFlagged {name : String} (names : Names setting name) (behind : String) :
    IsFlagged (name ++ behind) := by
  cases names with
  | word =>
      have spelled : ("--" ++ setting.word ++ behind).toList =
          '-' :: '-' :: (setting.word ++ behind).toList := by
        simp only [String.toList_append, List.append_assoc]
        rfl
      refine isFlagged_of_word ?_ spelled
      rw [String.toList_append]
      refine List.append_ne_nil_of_left_ne_nil ?_ _
      cases setting <;> decide
  | letter =>
      have spelled : ("-o" ++ behind).toList = '-' :: 'o' :: behind.toList := by
        rw [String.toList_append]
        rfl
      exact isFlagged_of_short (by decide) spelled

/-- A setting together with its value is looked at as an option. -/
theorem Gives.isFlagged {value : String} (gives : Gives setting value argument) :
    IsFlagged argument := by
  cases gives with
  | equals value names =>
      rw [String.append_assoc]
      exact names.isFlagged _
  | behind _ _ => exact Names.letter.isFlagged value

/-- What an argument is, by how it was understood. -/
inductive Means (grammar : Grammar) (argument : String) : Understood → Prop
  | log {next : Given} : IsVerbose argument → Means grammar argument (.all next)
  | together {next : Given} {setting : Setting} {value : String} :
      setting ∈ grammar.settings → Gives setting value argument →
        Means grammar argument (.all next)
  | apart {next : Given} {setting : Setting} :
      setting ∈ grammar.settings → Names setting argument →
        Means grammar argument (.awaiting next setting)

theorem toList_append_ofList (start : String) (text : List Char) :
    (start ++ String.ofList text).toList = start.toList ++ text := by
  rw [String.toList_append, String.toList_ofList]

/-- The only flag that does not stop the program is that for the log. -/
theorem eq_verbose_of_flag {flag : Flag} (done : given.flag grammar flag = .ok next) :
    flag = .verbose := by
  cases flag with
  | verbose => rfl
  | help => cases done
  | version =>
      unfold Given.flag at done
      by_cases told : grammar.hasVersion = true
      · simp only [told, if_true] at done
        cases done
      · simp only [told] at done
        cases done

/-- A word is all of what stands behind two hyphens, or all up to an equals sign. -/
theorem word_cases (text : List Char) :
    (text.dropWhile (· != '=') = [] ∧ text.takeWhile (· != '=') = text) ∨
      ∃ value, text.dropWhile (· != '=') = '=' :: value ∧
        text.takeWhile (· != '=') ++ '=' :: value = text := by
  have parts : text.takeWhile (· != '=') ++ text.dropWhile (· != '=') = text :=
    List.takeWhile_append_dropWhile
  have stops := List.head?_dropWhile_not (· != '=') text
  cases left : text.dropWhile (· != '=') with
  | nil =>
      rw [left, List.append_nil] at parts
      exact Or.inl ⟨rfl, parts⟩
  | cons c value =>
      rw [left] at parts stops
      have equals : c = '=' := by
        change (c != '=') = false at stops
        exact bne_eq_false_iff_eq.mp stops
      subst equals
      exact Or.inr ⟨value, rfl, parts⟩

/-- A word alone that is understood is a flag or the name of a setting. -/
theorem means_of_name {text : List Char} (bare : text.dropWhile (· != '=') = [])
    (same : text.takeWhile (· != '=') = text) (read : word grammar given text = .ok understood) :
    Means grammar ("--" ++ String.ofList text) understood := by
  unfold word at read
  simp only [bare, same] at read
  generalize String.ofList text = name at read ⊢
  cases flagged : Flag.ofWord? name with
  | some flag =>
      simp only [flagged] at read
      obtain ⟨next, noted, done⟩ := Except.bind_eq_ok.mp read
      cases done
      cases eq_verbose_of_flag noted
      rw [← Flag.eq_of_ofWord? flagged]
      exact .log (Or.inr rfl)
  | none =>
      cases named : Setting.ofWord? name with
      | none =>
          simp only [flagged, named] at read
          cases read
      | some setting =>
          simp only [flagged, named] at read
          split at read
          · cases read
          rename_i allowed
          cases read
          rw [← Setting.eq_of_ofWord? named]
          exact .apart (not_not.mp allowed) (.word setting)

/-- A word with a value that is understood is the name of a setting. -/
theorem means_of_equals {text value : List Char} (equals : text.dropWhile (· != '=') = '=' :: value)
    (read : word grammar given text = .ok understood) :
    Means grammar ("--" ++ String.ofList (text.takeWhile (· != '=')) ++ "=" ++ String.ofList value)
      understood := by
  unfold word at read
  simp only [equals] at read
  generalize String.ofList (text.takeWhile (· != '=')) = name at read ⊢
  cases flagged : Flag.ofWord? name with
  | some flag =>
      simp only [flagged] at read
      cases read
  | none =>
      cases named : Setting.ofWord? name with
      | none =>
          simp only [flagged, named] at read
          cases read
      | some setting =>
          simp only [flagged, named] at read
          split at read
          · cases read
          rename_i allowed
          obtain ⟨next, _, done⟩ := Except.bind_eq_ok.mp read
          cases done
          rw [← Setting.eq_of_ofWord? named]
          exact .together (not_not.mp allowed) (.equals _ (.word setting))

/-- A word that is understood is a flag or a setting, perhaps with a value. -/
theorem means_of_word {text : List Char} (spelled : argument.toList = '-' :: '-' :: text)
    (read : word grammar given text = .ok understood) : Means grammar argument understood := by
  rcases word_cases text with ⟨bare, same⟩ | ⟨value, equals, same⟩
  · have whole : argument = "--" ++ String.ofList text := by
      rw [← String.toList_inj, spelled, toList_append_ofList]
      rfl
    rw [whole]
    exact means_of_name bare same read
  · have whole : argument =
        "--" ++ String.ofList (text.takeWhile (· != '=')) ++ "=" ++ String.ofList value := by
      rw [← String.toList_inj, spelled]
      simp only [String.toList_append, String.toList_ofList, List.append_assoc]
      exact congrArg (fun rest => '-' :: '-' :: rest) same.symm
    rw [whole]
    exact means_of_equals equals read

/-- The letter for the output is understood where the output can be set. -/
theorem mem_settings_of_output {behind : List Char}
    (read : letters grammar given ('o' :: behind) = .ok understood) :
    .output ∈ grammar.settings := by
  have noFlag : Flag.ofLetter? 'o' = none := rfl
  have output : Setting.ofLetter? 'o' = some .output := rfl
  simp only [letters, noFlag, output] at read
  split at read
  · cases read
  · rename_i allowed
    exact not_not.mp allowed

/-- What is behind the letter for the output is its value. -/
theorem means_of_output {behind : List Char} (spelled : argument.toList = '-' :: 'o' :: behind)
    (read : letters grammar given ('o' :: behind) = .ok understood) :
    Means grammar argument understood := by
  have whole : argument = "-o" ++ String.ofList behind := by
    rw [← String.toList_inj, spelled, toList_append_ofList]
    rfl
  subst whole
  have allowed := mem_settings_of_output read
  rw [letters_output allowed] at read
  split at read
  · cases read
    exact .apart allowed .letter
  · rename_i value
    obtain ⟨next, _, done⟩ := Except.bind_eq_ok.mp read
    cases done
    have split : "-o" ++ String.ofList ('=' :: value) = "-o" ++ "=" ++ String.ofList value := by
      rw [← String.toList_inj, toList_append_ofList, toList_append_ofList, String.toList_append,
        List.append_assoc]
      rfl
    rw [split]
    exact .together allowed (.equals _ .letter)
  · rename_i filled apart
    obtain ⟨next, _, done⟩ := Except.bind_eq_ok.mp read
    cases done
    refine .together allowed (.behind ?_ ?_)
    · intro empty
      rw [← String.toList_inj, String.toList_ofList] at empty
      exact filled empty
    · rw [String.toList_ofList]
      intro first
      obtain ⟨value, same⟩ := List.head?_eq_some_iff.mp first
      exact apart value same

/-- No other letter is understood. -/
theorem letter_cases {letter : Char} {behind : List Char}
    (read : letters grammar given (letter :: behind) = .ok understood) :
    letter = 'v' ∨ letter = 'o' := by
  rw [letters] at read
  cases flagged : Flag.ofLetter? letter with
  | some flag =>
      simp only [flagged] at read
      obtain ⟨next, noted, _⟩ := Except.bind_eq_ok.mp read
      cases eq_verbose_of_flag noted
      exact Or.inl (Flag.eq_of_ofLetter? flagged).symm
  | none =>
      by_cases output : letter = 'o'
      · exact Or.inr output
      have unknown : Setting.ofLetter? letter = none := if_neg output
      simp only [flagged, unknown] at read
      cases read

/-- The letter for the log alone is a flag. -/
theorem means_of_log (spelled : argument.toList = ['-', 'v'])
    (read : letters grammar given ['v'] = .ok understood) : Means grammar argument understood := by
  have whole : argument = "-v" := String.toList_inj.mp spelled
  obtain ⟨next, _, done⟩ := Except.bind_eq_ok.mp (read : (given.note .log >>= _) = _)
  cases done
  exact .log (Or.inl whole)

/-- Letters behind the one for the log are understood after it. -/
theorem exists_of_letters {letter : Char} {behind : List Char}
    (read : letters grammar given ('v' :: letter :: behind) = .ok understood) :
    ∃ next, given.note .log = .ok next ∧
      letters grammar next (letter :: behind) = .ok understood :=
  Except.bind_eq_ok.mp (read : (given.note .log >>= _) = _)

/-- An option that is understood means something by itself, or it is the letter for the log with
other letters behind it. -/
theorem means_or_letters (flagged : IsFlagged argument)
    (read : option grammar given argument = .ok understood) :
    Means grammar argument understood ∨
      ∃ text, text ≠ "" ∧ text.toList.head? ≠ some '-' ∧ argument = "-v" ++ text := by
  obtain ⟨letter, behind, spelled⟩ := exists_of_isOption flagged.2
  by_cases long : letter = '-'
  · subst long
    unfold option at read
    rw [spelled] at read
    exact Or.inl (means_of_word spelled read)
  rw [option_cons_of_ne long _ spelled] at read
  rcases letter_cases read with rfl | rfl
  · cases behind with
    | nil => exact Or.inl (means_of_log spelled read)
    | cons letter others =>
        obtain ⟨_, _, left⟩ := exists_of_letters read
        refine Or.inr ⟨String.ofList (letter :: others), ?_, ?_, ?_⟩
        · rw [Ne, ← String.toList_inj, String.toList_ofList]
          exact List.cons_ne_nil _ _
        · rw [String.toList_ofList]
          rintro ⟨⟩
          rcases letter_cases left with same | same <;> cases same
        · rw [← String.toList_inj, spelled, toList_append_ofList]
          rfl
  · exact Or.inl (means_of_output spelled read)

end Arguments

end WasmGas

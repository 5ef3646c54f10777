import WasmGas.Proofs.CommandLine.Options

/-! # What a list of arguments spells

The arguments of a command spell items: that the log is asked for, the values of settings, and
inputs (`Arguments.Spells`). Arguments that spell some items add them to what was given, one after
another (`Arguments.settings_of_spells`), and arguments that are understood spell some
(`Arguments.exists_spells`).
-/

namespace WasmGas

namespace Arguments

/-- The items that arguments spell, one after another. -/
inductive Spells : List String → List Item → Prop
  | done : Spells [] []
  | log {argument : String} {rest : List String} {items : List Item} :
      IsVerbose argument → Spells rest items → Spells (argument :: rest) (.log :: items)
  /-- Letters can share a hyphen. -/
  | letters {text : String} {rest : List String} {items : List Item} :
      text ≠ "" → text.toList.head? ≠ some '-' → Spells (("-" ++ text) :: rest) items →
        Spells (("-v" ++ text) :: rest) (.log :: items)
  | together {setting : Setting} {value argument : String} {rest : List String}
      {items : List Item} :
      Gives setting value argument → Spells rest items →
        Spells (argument :: rest) (.value setting value :: items)
  | apart {setting : Setting} {value argument : String} {rest : List String} {items : List Item} :
      Names setting argument → isOption value = false → Spells rest items →
        Spells (argument :: value :: rest) (.value setting value :: items)
  | input {path : String} {rest : List String} {items : List Item} :
      isOption path = false → Spells rest items → Spells (path :: rest) (.input path :: items)
  /-- Behind two hyphens there are only inputs, whatever they look like. -/
  | inputs (paths : List String) : Spells ("--" :: paths) (paths.map .input)

variable {grammar : Grammar} {given next : Given} {understood : Understood} {setting : Setting}
  {argument : String} {rest : List String}

/-! ## What is spelled is understood -/

/-- An argument that is understood as a whole hands what it gives to the next one. -/
theorem settings_of_all {step : Except Stop Given} (flagged : IsFlagged argument)
    (read : option grammar given argument = (return .all (← step))) :
    settings grammar given (argument :: rest) =
      step >>= fun next => settings grammar next rest := by
  rw [settings.eq_def]
  simp only [flagged.1, flagged.2, if_true, if_false, read]
  cases step with
  | error stop => rfl
  | ok next => rfl

/-- An argument that waits for a value takes the next one for it. -/
theorem settings_of_awaiting {value : String} (flagged : IsFlagged argument)
    (read : option grammar given argument = .ok (.awaiting next setting)) :
    settings grammar given (argument :: value :: rest) =
      if isOption value then throw .misuse
      else next.set setting value >>= fun next => settings grammar next rest := by
  rw [settings.eq_def]
  simp only [flagged.1, flagged.2, if_true, if_false, read]

/-- The letter for the log can be taken out of a bundle of letters. -/
theorem settings_letters {text : String} (more : text ≠ "")
    (short : text.toList.head? ≠ some '-') :
    settings grammar given (("-v" ++ text) :: rest) =
      given.note .log >>= fun next => settings grammar next (("-" ++ text) :: rest) := by
  obtain ⟨letter, behind, notLong, one, other⟩ := exists_letters more short
  have flagged := isFlagged_of_short (by decide) one
  have left := isFlagged_of_short notLong other
  rw [settings.eq_def]
  simp only [flagged.1, flagged.2, if_true, if_false, option_letters more short]
  cases given.note .log with
  | error stop => rfl
  | ok next =>
      change _ = settings grammar next (("-" ++ text) :: rest)
      rw [settings.eq_def]
      simp only [left.1, left.2, if_true, if_false]
      rfl

/-- An argument that is no option is an input. -/
theorem settings_of_input (plain : isOption argument = false) :
    settings grammar given (argument :: rest) =
      given.place argument >>= fun next => settings grammar next rest := by
  have apart : argument ≠ "--" := by
    rintro rfl
    cases plain
  rw [settings.eq_def]
  simp only [apart, plain, Bool.false_eq_true, if_false]

/-- Behind two hyphens every argument is an input. -/
theorem inputs_eq_foldlM (paths : List String) :
    inputs given paths = (paths.map Item.input).foldlM Given.note given := by
  induction paths generalizing given with
  | nil => rfl
  | cons path rest each =>
      rw [inputs, List.map_cons, List.foldlM_cons]
      exact congrArg _ (funext fun next => each)

/-- Arguments add the items that they spell. -/
theorem settings_of_spells {items : List Item} (every : ∀ setting, setting ∈ grammar.settings)
    (spells : Spells rest items) :
    settings grammar given rest = items.foldlM Given.note given := by
  induction spells generalizing given with
  | done => rfl
  | log verbose _ further =>
      rw [settings_of_all verbose.isFlagged (option_of_isVerbose verbose), List.foldlM_cons]
      simp only [further]
  | letters more short _ further =>
      rw [settings_letters more short, List.foldlM_cons]
      simp only [further]
  | together gives _ further =>
      rw [settings_of_all gives.isFlagged (option_of_gives (every _) gives), List.foldlM_cons]
      simp only [further]
  | apart names plain _ further =>
      have flagged := names.isFlagged ""
      rw [String.append_empty] at flagged
      rw [settings_of_awaiting flagged (option_of_names (every _) names), plain,
        if_neg Bool.false_ne_true, List.foldlM_cons]
      simp only [further]
      rfl
  | input plain _ further =>
      rw [settings_of_input plain, List.foldlM_cons]
      simp only [further]
      rfl
  | inputs paths =>
      rw [settings.eq_def]
      exact inputs_eq_foldlM paths

/-! ## What is understood is spelled -/

/-- The arguments behind one that was understood are understood, the value that it waits for
included. -/
def Continues (grammar : Grammar) (after : Given) : Understood → List String → Prop
  | .all next, rest => settings grammar next rest = .ok after
  | .awaiting _ _, [] => False
  | .awaiting _ _, value :: rest =>
    isOption value = false ∧ ∃ next, settings grammar next rest = .ok after

/-- Arguments are understood if the first one is, with what it needs of the rest. -/
theorem exists_of_settings_cons {after : Given} (flagged : IsFlagged argument)
    (read : settings grammar given (argument :: rest) = .ok after) :
    ∃ understood, option grammar given argument = .ok understood ∧
      Continues grammar after understood rest := by
  rw [settings.eq_def] at read
  simp only [flagged.1, flagged.2, if_true, if_false] at read
  cases understood : option grammar given argument with
  | error stop =>
      simp only [understood] at read
      cases read
  | ok part =>
      refine ⟨part, rfl, ?_⟩
      cases part with
      | all next =>
          simp only [understood] at read
          exact read
      | awaiting next setting =>
          cases rest with
          | nil =>
              simp only [understood] at read
              cases read
          | cons value rest =>
              simp only [understood] at read
              split at read
              · cases read
              rename_i plain
              obtain ⟨placed, _, done⟩ := Except.bind_eq_ok.mp read
              exact ⟨Bool.eq_false_iff.mpr plain, placed, done⟩

/-- How much there is of some arguments. -/
def size : List String → Nat
  | [] => 0
  | argument :: rest => argument.toList.length + 1 + size rest

/-- An argument that means something by itself spells an item, perhaps with the next one. -/
theorem exists_spells_of_means {after : Given} (means : Means grammar argument understood)
    (left : Continues grammar after understood rest)
    (further : ∀ {given : Given} {others : List String}, size others ≤ size rest →
      settings grammar given others = .ok after → ∃ items, Spells others items) :
    ∃ items, Spells (argument :: rest) items := by
  cases means with
  | log verbose =>
      obtain ⟨items, spells⟩ := further le_rfl left
      exact ⟨_, .log verbose spells⟩
  | together _ gives =>
      obtain ⟨items, spells⟩ := further le_rfl left
      exact ⟨_, .together gives spells⟩
  | apart _ names =>
      cases rest with
      | nil => exact left.elim
      | cons value others =>
          obtain ⟨plain, next, left⟩ := left
          have fewer : size others ≤ size (value :: others) := by
            rw [size]
            omega
          obtain ⟨items, spells⟩ := further fewer left
          exact ⟨_, .apart names plain spells⟩

/-- Arguments that are understood spell some items. -/
theorem exists_spells {arguments : List String} {after : Given}
    (read : settings grammar given arguments = .ok after) : ∃ items, Spells arguments items := by
  -- A letter taken from behind a hyphen makes the first argument shorter, not the list.
  induction measured : size arguments using Nat.strong_induction_on
    generalizing given arguments with
  | _ n shorter =>
  subst measured
  cases arguments with
  | nil => exact ⟨[], .done⟩
  | cons argument rest =>
      have further {given : Given} {others : List String} (fewer : size others ≤ size rest)
          (left : settings grammar given others = .ok after) : ∃ items, Spells others items := by
        refine shorter _ ?_ left rfl
        rw [size]
        omega
      by_cases last : argument = "--"
      · subst last
        exact ⟨_, .inputs rest⟩
      cases flagged : isOption argument with
      | false =>
          rw [settings_of_input flagged] at read
          obtain ⟨next, _, left⟩ := Except.bind_eq_ok.mp read
          obtain ⟨items, spells⟩ := further le_rfl left
          exact ⟨_, .input flagged spells⟩
      | true =>
          obtain ⟨understood, one, left⟩ := exists_of_settings_cons ⟨last, flagged⟩ read
          rcases means_or_letters ⟨last, flagged⟩ one with means | ⟨text, more, short, rfl⟩
          · exact exists_spells_of_means means left further
          · rw [settings_letters more short] at read
            obtain ⟨next, _, left⟩ := Except.bind_eq_ok.mp read
            have fewer : size (("-" ++ text) :: rest) < size (("-v" ++ text) :: rest) := by
              have dropped : ("-".toList ++ text.toList).length <
                  ("-v".toList ++ text.toList).length := Nat.lt_succ_self _
              rw [size, size, String.toList_append, String.toList_append]
              omega
            obtain ⟨items, spells⟩ := shorter _ fewer left rfl
            exact ⟨_, .letters more short spells⟩

end Arguments

end WasmGas

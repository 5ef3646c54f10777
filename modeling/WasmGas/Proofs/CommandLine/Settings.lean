import WasmGas.Proofs.CommandLine.Spelling
import Mathlib.Data.List.Nodup

/-! # What the arguments of a command to meter ask for

Before the word `meter` there may be a flag. Behind it come a flag, settings with their values, and
the input, in any order. Each of them may come once, and what is not given is as usual
(`Arguments.Asks`). The arguments that are taken for a command to meter are those that ask for one,
and the command is the one that they ask for (`Request.ofArguments_eq_meter_iff`).
-/

namespace WasmGas

/-- A register type is found by its name. -/
theorem Register.ofName?_name (register : Register) : ofName? register.name = some register := by
  cases register <;> decide

namespace Arguments

/-! ## What items ask for -/

/-- What an item is about, which only one item may be about. -/
inductive Subject where
  | log
  | setting (setting : Setting)
  | input
  deriving DecidableEq

def Item.subject : Item → Subject
  | log => .log
  | value setting _ => .setting setting
  | input _ => .input

/-- An item is in order if its path is not empty or its register type is one. -/
def Item.Acceptable : Item → Prop
  | log => True
  | value .output path => path ≠ ""
  | value .tariff path => path ≠ ""
  | value .module _ => True
  | value .field _ => True
  | value .register name => ∃ register : Register, register.name = name
  | input path => path ≠ ""

/-- Items that can stand together: each is in order, and no two are about the same. -/
def Proper (items : List Item) : Prop :=
  (items.map Item.subject).Nodup ∧ ∀ item ∈ items, item.Acceptable

/-- What counts for a setting: the value that was given, or the usual one if none was. -/
inductive Settles (items : List Item) (setting : Setting) (usual : String) : String → Prop
  | given {value : String} : .value setting value ∈ items → Settles items setting usual value
  | usual : (∀ value, .value setting value ∉ items) → Settles items setting usual usual

/-- The parts of a command to meter are those that items say. -/
structure Chooses (items : List Item) (input : String) (output named : Option String)
    (options : MeteringOptions) : Prop where
  input : .input input ∈ items
  output (path : String) : output = some path ↔ .value .output path ∈ items
  tariff (path : String) : named = some path ↔ .value .tariff path ∈ items
  module : Settles items .module "metering" options.module
  field : Settles items .field "usegas" options.field
  register : Settles items .register "i64" options.register.name

/-- Arguments ask for metering, with an input, an output, a tariff and options, and for the log
or not. -/
def Asks (arguments : List String) (verbose : Bool) (input : String)
    (output named : Option String) (options : MeteringOptions) : Prop :=
  ∃ front back items, arguments = front ++ "meter" :: back ∧
    (front = [] ∨ ∃ flag, IsVerbose flag ∧ front = [flag]) ∧
    Spells back items ∧ Proper items ∧ Chooses items input output named options ∧
    (verbose = true ↔ front ≠ [] ∨ .log ∈ items)

/-! ## What items add up to -/

variable {grammar : Grammar} {given next after : Given} {setting : Setting} {argument : String}
  {arguments rest : List String} {items before : List Item} {item : Item}

/-- What was given together with one more item. -/
def Given.add (given : Given) : Item → Given
  | .log => { given with verbose := true }
  | .value setting value => { given with values := (setting, value) :: given.values }
  | .input path => { given with input := some path }

/-- What was given is what items say. -/
structure Given.Holds (given : Given) (items : List Item) : Prop where
  log : given.verbose = true ↔ .log ∈ items
  input (path : String) : given.input = some path ↔ .input path ∈ items
  value (setting : Setting) (value : String) :
    given.values.lookup setting = some value ↔ .value setting value ∈ items

/-- Nothing was given before the first argument. -/
theorem holds_nil : ({} : Given).Holds [] where
  log := by simp
  input path := by simp
  value setting value := by simp

/-- A setting accepts the values that are in order. -/
theorem accepts_iff {value : String} :
    setting.accepts value = true ↔ (Item.value setting value).Acceptable := by
  cases setting with
  | output => exact bne_iff_ne
  | tariff => exact bne_iff_ne
  | module => exact iff_of_true rfl trivial
  | field => exact iff_of_true rfl trivial
  | register =>
      change (Register.ofName? value).isSome = true ↔ ∃ register : Register, register.name = value
      unfold Register.ofName?
      rw [List.find?_isSome]
      constructor
      · rintro ⟨register, _, same⟩
        exact ⟨register, beq_iff_eq.mp same⟩
      · rintro ⟨register, same⟩
        exact ⟨register, by cases register <;> decide, beq_iff_eq.mpr same⟩

/-- Whether something about the same was given before. -/
theorem Given.Holds.subject_mem (holds : given.Holds before) (item : Item) :
    item.subject ∈ before.map Item.subject ↔
      match item with
      | .log => given.verbose = true
      | .value setting _ => (given.values.lookup setting).isSome = true
      | .input _ => given.input.isSome = true := by
  rw [List.mem_map]
  cases item with
  | log =>
      rw [holds.log]
      constructor
      · rintro ⟨other, listed, same⟩
        cases other with
        | log => exact listed
        | value _ _ => cases same
        | input _ => cases same
      · exact fun listed => ⟨_, listed, rfl⟩
  | value setting value =>
      change _ ↔ (given.values.lookup setting).isSome = true
      simp only [Option.isSome_iff_exists, holds.value]
      constructor
      · rintro ⟨other, listed, same⟩
        cases other with
        | log => cases same
        | value _ found =>
            cases same
            exact ⟨found, listed⟩
        | input _ => cases same
      · rintro ⟨found, listed⟩
        exact ⟨_, listed, rfl⟩
  | input path =>
      change _ ↔ given.input.isSome = true
      simp only [Option.isSome_iff_exists, holds.input]
      constructor
      · rintro ⟨other, listed, same⟩
        cases other with
        | log => cases same
        | value _ _ => cases same
        | input found => exact ⟨found, listed⟩
      · rintro ⟨found, listed⟩
        exact ⟨_, listed, rfl⟩

/-- An item is taken if it is in order and none was about the same. -/
theorem note_eq_ok (holds : given.Holds before) :
    given.note item = .ok next ↔
      (item.subject ∉ before.map Item.subject ∧ item.Acceptable) ∧ given.add item = next := by
  rw [holds.subject_mem]
  cases item with
  | log =>
      rw [Given.note, Except.check_eq_ok]
      exact and_congr_left' (and_iff_left trivial).symm
  | value setting value =>
      rw [← accepts_iff, Given.note, Given.set, Except.check_eq_ok, Bool.or_eq_true, not_or,
        Bool.not_eq_true', Bool.not_eq_false]
      rfl
  | input path =>
      rw [Given.note, Given.place, Except.check_eq_ok, Bool.or_eq_true, decide_eq_true_eq, not_or]
      rfl

/-- An item about something new adds what it says, and only that. -/
theorem Given.Holds.add (holds : given.Holds before)
    (fresh : item.subject ∉ before.map Item.subject) :
    (given.add item).Holds (before ++ [item]) := by
  rw [holds.subject_mem] at fresh
  cases item with
  | log =>
      refine ⟨?_, fun path => ?_, fun setting value => ?_⟩
      · simp [Given.add]
      · simp [Given.add, holds.input]
      · simp [Given.add, holds.value]
  | value setting value =>
      refine ⟨?_, fun path => ?_, fun other held => ?_⟩
      · simp [Given.add, holds.log]
      · simp [Given.add, holds.input]
      · change List.lookup other ((setting, value) :: given.values) = some held ↔ _
        rw [List.mem_append, List.mem_singleton, Item.value.injEq]
        by_cases same : other = setting
        · subst same
          have absent : .value other held ∉ before := by
            rw [← holds.value]
            exact fun found => fresh (Option.isSome_iff_exists.mpr ⟨held, found⟩)
          rw [List.lookup_cons_self, Option.some.injEq, or_iff_right absent, eq_comm]
          exact (and_iff_right rfl).symm
        · rw [List.lookup_cons, beq_eq_false_iff_ne.mpr same, holds.value,
            or_iff_left fun both => same both.1]
  | input path =>
      refine ⟨?_, fun other => ?_, fun setting value => ?_⟩
      · simp [Given.add, holds.log]
      · change some path = some other ↔ _
        have absent : .input other ∉ before := by
          rw [← holds.input]
          exact fun found => fresh (Option.isSome_iff_exists.mpr ⟨other, found⟩)
        rw [List.mem_append, List.mem_singleton, Item.input.injEq, Option.some.injEq,
          or_iff_right absent, eq_comm]
      · simp [Given.add, holds.value]

/-- One more item can stand behind others if it is in order and about something new. -/
theorem proper_append_singleton :
    Proper (before ++ [item]) ↔
      Proper before ∧ item.subject ∉ before.map Item.subject ∧ item.Acceptable := by
  unfold Proper
  rw [List.map_append, List.map_singleton, List.nodup_append_comm]
  simp only [List.singleton_append, List.nodup_cons, List.forall_mem_append,
    List.forall_mem_singleton]
  constructor
  · rintro ⟨⟨fresh, apart⟩, each, one⟩
    exact ⟨⟨apart, each⟩, fresh, one⟩
  · rintro ⟨⟨apart, each⟩, fresh, one⟩
    exact ⟨⟨fresh, apart⟩, each, one⟩

/-- The first ones of items that can stand together can. -/
theorem Proper.of_append (proper : Proper (before ++ items)) : Proper before := by
  unfold Proper at proper ⊢
  rw [List.map_append, List.forall_mem_append] at proper
  exact ⟨(List.nodup_append.mp proper.1).1, proper.2.1⟩

/-- Items are taken if they can stand together with those before them, and then they add up. -/
theorem foldlM_note_eq_ok (holds : given.Holds before) (proper : Proper before) :
    items.foldlM Given.note given = .ok after ↔
      Proper (before ++ items) ∧ items.foldl Given.add given = after := by
  induction items generalizing given before with
  | nil =>
      rw [List.append_nil]
      exact ⟨fun done => ⟨proper, Except.ok.inj done⟩, fun done => congrArg Except.ok done.2⟩
  | cons item items further =>
      rw [List.foldlM_cons, Except.bind_eq_ok, List.append_cons, List.foldl_cons]
      constructor
      · rintro ⟨next, noted, done⟩
        obtain ⟨⟨fresh, inOrder⟩, rfl⟩ := (note_eq_ok holds).mp noted
        have grown := proper_append_singleton.mpr ⟨proper, fresh, inOrder⟩
        exact (further (holds.add fresh) grown).mp done
      · rintro ⟨whole, rfl⟩
        have grown := whole.of_append
        obtain ⟨-, fresh, inOrder⟩ := proper_append_singleton.mp grown
        exact ⟨_, (note_eq_ok holds).mpr ⟨⟨fresh, inOrder⟩, rfl⟩,
          (further (holds.add fresh) grown).mpr ⟨whole, rfl⟩⟩

/-- What items add up to is what they say. -/
theorem Given.Holds.foldl (holds : given.Holds before) (proper : Proper (before ++ items)) :
    (items.foldl Given.add given).Holds (before ++ items) := by
  induction items generalizing given before with
  | nil =>
      rw [List.append_nil]
      exact holds
  | cons item items further =>
      rw [List.append_cons] at proper ⊢
      obtain ⟨-, fresh, -⟩ := proper_append_singleton.mp proper.of_append
      exact further (holds.add fresh) proper

/-- **What is given.** The arguments of a command are understood if they spell items that can stand
together, and what they give is then what those items say. -/
theorem settings_eq_ok_iff (every : ∀ setting, setting ∈ grammar.settings) :
    settings grammar {} arguments = .ok after ↔
      ∃ items, Spells arguments items ∧ Proper items ∧ items.foldl Given.add {} = after := by
  have none : Proper [] := ⟨List.nodup_nil, by simp⟩
  constructor
  · intro read
    obtain ⟨items, spells⟩ := exists_spells read
    rw [settings_of_spells every spells, foldlM_note_eq_ok holds_nil none] at read
    exact ⟨items, spells, read⟩
  · rintro ⟨items, spells, proper, sum⟩
    rw [settings_of_spells every spells, foldlM_note_eq_ok holds_nil none]
    exact ⟨proper, sum⟩

/-! ## The command -/

variable {verbose : Bool} {input : String} {output named : Option String}
  {options : MeteringOptions}

/-- A name is the one that was given, or else the usual one. -/
theorem getD_lookup_eq_iff (holds : given.Holds items) {usual chosen : String} :
    (given.values.lookup setting).getD usual = chosen ↔ Settles items setting usual chosen := by
  constructor
  · rintro rfl
    cases found : given.values.lookup setting with
    | none =>
        refine .usual fun value listed => ?_
        cases found.symm.trans ((holds.value setting value).mpr listed)
    | some value => exact .given ((holds.value setting value).mp found)
  · intro settles
    cases settles with
    | given listed => rw [(holds.value setting chosen).mpr listed, Option.getD_some]
    | usual absent =>
        cases found : given.values.lookup setting with
        | none => rfl
        | some value => exact absurd ((holds.value setting value).mp found) (absent value)

/-- The register type is the one with the name that was given, or else the usual one. -/
theorem register_eq_iff (holds : given.Holds items) (proper : Proper items)
    {register : Register} :
    ((given.values.lookup .register).bind Register.ofName?).getD .i64 = register ↔
      Settles items .register "i64" register.name := by
  constructor
  · intro chosen
    cases found : given.values.lookup .register with
    | none =>
        rw [found] at chosen
        cases chosen
        refine .usual fun value listed => ?_
        cases found.symm.trans ((holds.value .register value).mpr listed)
    | some name =>
        have listed := (holds.value .register name).mp found
        obtain ⟨known, rfl⟩ := proper.2 _ listed
        rw [found, Option.bind_some, Register.ofName?_name, Option.getD_some] at chosen
        subst chosen
        exact .given listed
  · intro settles
    generalize named : register.name = name at settles
    cases settles with
    | given listed =>
        rw [(holds.value .register name).mpr listed, Option.bind_some, ← named,
          Register.ofName?_name, Option.getD_some]
    | usual absent =>
        cases found : given.values.lookup .register with
        | none =>
            have usual := Register.ofName?_name register
            rw [named] at usual
            exact Option.some.inj usual
        | some value => exact absurd ((holds.value .register value).mp found) (absent value)

/-- The command with what is given is the one that items say. -/
theorem command_eq_meter_iff (holds : given.Holds items) (proper : Proper items) :
    given.input = some input ∧
        Verb.meter.command input given.values = .meter input output named options ↔
      Chooses items input output named options := by
  constructor
  · rintro ⟨placed, same⟩
    cases same
    exact ⟨(holds.input input).mp placed, holds.value .output, holds.value .tariff,
      (getD_lookup_eq_iff holds).mp rfl, (getD_lookup_eq_iff holds).mp rfl,
      (register_eq_iff holds proper).mp rfl⟩
  · intro chooses
    have path? {setting : Setting} {known : Option String}
        (same : ∀ path, known = some path ↔ .value setting path ∈ items) :
        given.values.lookup setting = known :=
      Option.ext fun path => (holds.value setting path).trans (same path).symm
    refine ⟨(holds.input input).mpr chooses.input, ?_⟩
    simp only [Verb.command, path? chooses.output, path? chooses.tariff,
      (getD_lookup_eq_iff holds).mpr chooses.module, (getD_lookup_eq_iff holds).mpr chooses.field,
      (register_eq_iff holds proper).mpr chooses.register]

/-- A command is performed if its arguments are understood and there is an input among them. -/
theorem requestOf_eq_perform_iff {told : Bool} {verb : Verb} {command : Command} :
    requestOf told verb arguments = .perform verbose command ↔
      ∃ given path, settings verb.grammar {} arguments = .ok given ∧ given.input = some path ∧
        verb.command path given.values = command ∧ (told || given.verbose) = verbose := by
  unfold requestOf
  cases read : settings verb.grammar {} arguments with
  | error stop =>
      constructor
      · intro asked
        cases stop <;> cases asked
      · rintro ⟨_, _, done, _⟩
        cases done
  | ok given =>
      cases placed : given.input with
      | none =>
          constructor
          · intro asked
            simp only [placed] at asked
            cases asked
          · rintro ⟨_, _, done, placedThere, _⟩
            cases done
            cases placed.symm.trans placedThere
      | some path =>
          simp only [placed]
          constructor
          · intro asked
            cases asked
            exact ⟨given, path, rfl, placed, rfl, rfl⟩
          · rintro ⟨_, _, done, placedThere, rfl, rfl⟩
            cases done
            cases placed.symm.trans placedThere
            rfl

/-- What the arguments behind the word for metering ask for. -/
theorem requestOf_eq_meter_iff {told : Bool} :
    requestOf told .meter arguments = .perform verbose (.meter input output named options) ↔
      ∃ items, Spells arguments items ∧ Proper items ∧
        Chooses items input output named options ∧
          (verbose = true ↔ told = true ∨ .log ∈ items) := by
  have every : ∀ setting, setting ∈ Verb.meter.grammar.settings := Setting.mem_all
  rw [requestOf_eq_perform_iff]
  simp only [settings_eq_ok_iff every]
  constructor
  · rintro ⟨given, path, ⟨items, spells, proper, rfl⟩, placed, same, rfl⟩
    have holds := holds_nil.foldl proper
    have path_eq : path = input := by
      cases same
      rfl
    subst path_eq
    refine ⟨items, spells, proper, (command_eq_meter_iff holds proper).mp ⟨placed, same⟩, ?_⟩
    rw [Bool.or_eq_true, holds.log]
    rfl
  · rintro ⟨items, spells, proper, chooses, logged⟩
    have holds := holds_nil.foldl proper
    obtain ⟨placed, same⟩ := (command_eq_meter_iff holds proper).mpr chooses
    refine ⟨_, input, ⟨items, spells, proper, rfl⟩, placed, same, ?_⟩
    rw [Bool.eq_iff_iff, logged, Bool.or_eq_true, holds.log]
    rfl

/-! ## Before the command -/

variable {understood : Understood}

/-- Before the word for metering there can only be the flag for the log. -/
theorem isVerbose_of_option (bare : grammar.settings = []) (flagged : IsFlagged argument)
    (read : option grammar given argument = .ok understood) : IsVerbose argument := by
  have unset {setting : Setting} (allowed : setting ∈ grammar.settings) : False := by
    rw [bare] at allowed
    cases allowed
  rcases means_or_letters flagged read with means | ⟨text, more, short, rfl⟩
  · cases means with
    | log verbose => exact verbose
    | together allowed _ => exact (unset allowed).elim
    | apart allowed _ => exact (unset allowed).elim
  · obtain ⟨letter, behind, _, spelled, _⟩ := exists_letters more short
    rw [option_cons_of_ne (by decide) _ spelled] at read
    obtain ⟨next, noted, left⟩ := exists_of_letters read
    rcases letter_cases left with rfl | rfl
    · obtain ⟨-, rfl⟩ := note_log_eq_ok.mp noted
      obtain ⟨_, again, _⟩ := Except.bind_eq_ok.mp (left : (Given.note _ .log >>= _) = _)
      exact absurd rfl (note_log_eq_ok.mp again).1
    · exact (unset (mem_settings_of_output left)).elim

/-- A flag before the command has the rest looked at with the log on. -/
theorem before_of_flagged (flagged : IsFlagged argument) :
    Arguments.before given (argument :: rest) =
        .perform verbose (.meter input output named options) ↔
      IsVerbose argument ∧ ¬ given.verbose = true ∧
        Arguments.before { given with verbose := true } rest =
          .perform verbose (.meter input output named options) := by
  rw [Arguments.before.eq_def]
  simp only [flagged.1, flagged.2, if_true, if_false]
  constructor
  · intro asked
    cases read : option ⟨[], true⟩ given argument with
    | error stop =>
        simp only [read] at asked
        cases stop <;> cases asked
    | ok understood =>
        have verbose := isVerbose_of_option rfl flagged read
        rw [option_of_isVerbose verbose] at read
        obtain ⟨next, noted, done⟩ := Except.bind_eq_ok.mp read
        cases done
        obtain ⟨once, rfl⟩ := note_log_eq_ok.mp noted
        rw [option_of_isVerbose verbose, note_log_eq_ok.mpr ⟨once, rfl⟩] at asked
        exact ⟨verbose, once, asked⟩
  · rintro ⟨verbose, once, asked⟩
    rw [option_of_isVerbose verbose, note_log_eq_ok.mpr ⟨once, rfl⟩]
    exact asked

/-- Asking for help performs nothing. -/
theorem helpOn_ne_perform {command : Command} : helpOn rest ≠ .perform verbose command := by
  unfold helpOn
  split
  · exact fun asked => nomatch asked
  · split <;> exact fun asked => nomatch asked
  · exact fun asked => nomatch asked

/-- The word for metering is the only one that leads to it. -/
theorem eq_meter_of_ofWord? {verb : Verb} {told : Bool} (known : Verb.ofWord? argument = some verb)
    (asked : requestOf told verb rest = .perform verbose (.meter input output named options)) :
    argument = "meter" ∧ verb = .meter := by
  obtain ⟨_, _, _, _, same, _⟩ := requestOf_eq_perform_iff.mp asked
  cases verb with
  | meter =>
      unfold Verb.ofWord? at known
      by_cases meter : argument = "meter"
      · exact ⟨meter, rfl⟩
      · rw [if_neg meter] at known
        split at known
        · cases known
        · split at known <;> cases known
  | roundtrip => cases same
  | inspect => cases same

/-- The first argument that is no option is the name of the command. -/
theorem before_of_plain (plain : isOption argument = false) :
    Arguments.before given (argument :: rest) =
        .perform verbose (.meter input output named options) ↔
      argument = "meter" ∧ requestOf given.verbose .meter rest =
        .perform verbose (.meter input output named options) := by
  have apart : argument ≠ "--" := by
    rintro rfl
    cases plain
  rw [Arguments.before.eq_def]
  simp only [apart, plain, Bool.false_eq_true, if_false]
  constructor
  · intro asked
    split at asked
    · exact absurd asked helpOn_ne_perform
    · split at asked
      · rename_i verb known
        obtain ⟨rfl, rfl⟩ := eq_meter_of_ofWord? known asked
        exact ⟨rfl, asked⟩
      · cases asked
  · rintro ⟨rfl, asked⟩
    exact asked

/-- What comes before the word for metering, and what comes behind it. -/
theorem before_eq_meter_iff :
    Arguments.before {} arguments = .perform verbose (.meter input output named options) ↔
      ∃ front back, arguments = front ++ "meter" :: back ∧
        (front = [] ∨ ∃ flag, IsVerbose flag ∧ front = [flag]) ∧
        requestOf (decide (front ≠ [])) .meter back =
          .perform verbose (.meter input output named options) := by
  constructor
  · intro asked
    cases arguments with
    | nil => cases asked
    | cons first rest =>
        by_cases last : first = "--"
        · subst last
          cases asked
        cases flagged : isOption first with
        | false =>
            obtain ⟨rfl, asked⟩ := (before_of_plain flagged).mp asked
            exact ⟨[], rest, rfl, Or.inl rfl, asked⟩
        | true =>
            obtain ⟨one, _, asked⟩ := (before_of_flagged ⟨last, flagged⟩).mp asked
            cases rest with
            | nil => cases asked
            | cons second rest =>
                by_cases last : second = "--"
                · subst last
                  cases asked
                cases flagged : isOption second with
                | false =>
                    obtain ⟨rfl, asked⟩ := (before_of_plain flagged).mp asked
                    exact ⟨[first], rest, rfl, Or.inr ⟨first, one, rfl⟩, asked⟩
                | true =>
                    obtain ⟨_, once, _⟩ := (before_of_flagged ⟨last, flagged⟩).mp asked
                    exact absurd rfl once
  · rintro ⟨front, back, rfl, rfl | ⟨flag, one, rfl⟩, asked⟩
    · exact (before_of_plain rfl).mpr ⟨rfl, asked⟩
    · exact (before_of_flagged one.isFlagged).mpr
        ⟨one, Bool.false_ne_true, (before_of_plain rfl).mpr ⟨rfl, asked⟩⟩

end Arguments

/-- **What arguments ask for.** Arguments are taken for a command to meter if they spell one, with
every part of it as they say. -/
theorem Request.ofArguments_eq_meter_iff {verbose : Bool} {input : String}
    {output named : Option String} {options : MeteringOptions} {arguments : List String} :
    ofArguments arguments = .perform verbose (.meter input output named options) ↔
      Arguments.Asks arguments verbose input output named options := by
  unfold ofArguments Arguments.Asks
  rw [Arguments.before_eq_meter_iff]
  simp only [Arguments.requestOf_eq_meter_iff, decide_eq_true_eq]
  constructor
  · rintro ⟨front, back, split, flags, items, spells, proper, chooses, logged⟩
    exact ⟨front, back, items, split, flags, spells, proper, chooses, logged⟩
  · rintro ⟨front, back, items, split, flags, spells, proper, chooses, logged⟩
    exact ⟨front, back, split, flags, items, spells, proper, chooses, logged⟩

end WasmGas

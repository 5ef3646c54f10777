import WasmGas.Proofs.Metering.Amounts
import WasmGas.Proofs.Metering.FunctionSpace

/-! # Where code has to end

Code that goes on after its last branch is refused, and the first such body is the one that is told
(`Module.meter_missingTerminator`). What it costs to enter a function is charged by the call in
front of its first run. But a body without instructions has no run. It does not go on after a
branch either, so that it is accepted, and nothing is charged for entering its function.
-/

namespace WasmGas

/-- Whether a body goes on after its last branch. An empty one does not. -/
def FunctionBody.goesOn (body : FunctionBody) : Bool :=
  body.code.getLast?.any fun last => !last.isBranch

/-! ## What is left behind the runs -/

/-- A run ends with its branch. -/
theorem IsRun.isBranch_of_getLast? {run : List Instruction} (isRun : IsRun run) :
    ∀ last ∈ run.getLast?, last.isBranch = true := by
  induction isRun with
  | branch branches =>
      intro last ending
      cases ending
      exact branches
  | @cons head tail _ isRun ends =>
      intro last ending
      obtain ⟨second, more, rfl⟩ := List.exists_cons_of_ne_nil isRun.ne_nil
      exact ends last ending

/-- Code ends with its last run if its last instruction is a branch. -/
theorem runs_finished_iff {code : List Instruction} :
    (runs code).2 = [] ↔ ∀ last ∈ code.getLast?, last.isBranch = true := by
  refine ⟨fun finished last ending => ?_, runs_finished⟩
  obtain ⟨isRun, whole⟩ := segments_runs finished
  rw [← whole] at ending
  rcases List.eq_nil_or_concat (runs code).1 with none | ⟨before, run, split⟩
  · rw [none] at ending
    cases ending
  · rw [split, List.concat_eq_append] at isRun ending
    have one := isRun run (List.mem_append_right _ (List.mem_singleton_self run))
    rw [List.flatten_append, List.flatten_singleton,
      List.getLast?_append_of_ne_nil _ one.ne_nil] at ending
    exact one.isBranch_of_getLast? last ending

/-- A body does not go on behind its last run if nothing is left over. -/
theorem FunctionBody.goesOn_eq_false_iff {body : FunctionBody} :
    body.goesOn = false ↔ (runs body.code).2 = [] := by
  rw [runs_finished_iff, goesOn]
  cases body.code.getLast? with
  | none => simp
  | some last => simp

/-- Renumbering does not change whether a body goes on. -/
theorem FunctionBody.goesOn_renumber (insertion : UInt32) (body : FunctionBody) :
    (body.renumber insertion).goesOn = body.goesOn := by
  simp only [goesOn, renumber, List.getLast?_map, Option.any_map, Instruction.isBranch,
    Instruction.name_renumber]

/-! ## The first body that goes on -/

/-- Where the register holds every amount nothing is refused. -/
theorem Register.Outcome.exists_ok {α : Type} {register : Register} {gas : α → Gas}
    {amounts : List Gas} {result : Except MeteringError α}
    (outcome : Outcome register gas amounts result)
    (holds : ∀ amount ∈ amounts, register.holds amount = true) : ∃ a, result = .ok a := by
  cases outcome with
  | charged _ _ => exact ⟨_, rfl⟩
  | refused listed tooMuch =>
      rw [holds _ listed] at tooMuch
      cases tooMuch

namespace Meter

variable {meter : Meter} {callCost : Gas}

/-- Code that goes on behind its last run is refused. -/
theorem meterCode_of_unfinished {entry : Gas} {code : List Instruction}
    (unfinished : (runs code).2 ≠ [])
    (holds : ∀ amount ∈ meter.amounts entry (runs code).1, meter.register.holds amount = true)
    (function : UInt32) :
    meter.meterCode meter.ownCost entry function code = .error (.missingTerminator function) := by
  obtain ⟨metered, charged⟩ := (meterRuns_outcome entry (runs code).1).exists_ok holds
  refine Except.bind_eq_error.mpr (Or.inr ⟨metered, charged, ?_⟩)
  exact if_neg unfinished

/-- The first body that goes on behind its last run is blamed. -/
theorem meterBodies_of_goesOn {entries : List Gas} {bodies : List FunctionBody} {place : Nat}
    (paired : entries.length = bodies.length)
    (holds : ∀ amount ∈ meter.bodyAmounts entries bodies, meter.register.holds amount = true)
    (first : bodies.findIdx? FunctionBody.goesOn = some place) (function : UInt32) :
    meter.meterBodies meter.ownCost function entries bodies =
      .error (.missingTerminator (function + UInt32.ofNat place)) := by
  induction bodies generalizing entries place function with
  | nil => cases first
  | cons body others refused =>
      obtain ⟨entry, more, rfl⟩ := List.exists_cons_of_length_eq_add_one paired
      obtain ⟨here, further⟩ := List.forall_mem_append.mp holds
      rw [List.findIdx?_cons] at first
      by_cases goesOn : body.goesOn = true
      · rw [if_pos goesOn] at first
        cases first
        have unfinished : (runs body.code).2 ≠ [] := fun finished => by
          rw [FunctionBody.goesOn_eq_false_iff.mpr finished] at goesOn
          cases goesOn
        have start : function + UInt32.ofNat 0 = function := UInt32.add_zero function
        rw [start]
        exact Except.bind_eq_error.mpr (Or.inl (meterCode_of_unfinished unfinished here function))
      · rw [if_neg goesOn] at first
        obtain ⟨later, found, rfl⟩ := Option.map_eq_some_iff.mp first
        have finished := FunctionBody.goesOn_eq_false_iff.mp (eq_false_of_ne_true goesOn)
        obtain ⟨code, charged⟩ := (meterCode_outcome finished _ function).exists_ok here
        refine Except.bind_eq_error.mpr (Or.inr ⟨code, charged, ?_⟩)
        refine Except.bind_eq_error.mpr (Or.inl ?_)
        rw [add_ofNat_succ]
        exact refused (Nat.succ.inj paired) further found (function + 1)

/-- The first code section is the first one that can be refused. -/
theorem meterSections_of_bodies {sections : List Section} {bodies : List FunctionBody}
    {first : UInt32} {entries : List Gas} {fault : MeteringError}
    (held : sections.findSome? Section.bodies? = some bodies)
    (failed : meter.meterBodies callCost first entries bodies = .error fault) :
    meter.meterSections callCost first entries sections = .error fault := by
  induction sections with
  | nil => cases held
  | cons head tail refused =>
      rw [List.findSome?_cons] at held
      cases viewed : head.bodies? with
      | some others =>
          rw [viewed] at held
          cases head <;> cases viewed
          cases held
          exact Except.bind_eq_error.mpr (Or.inl failed)
      | none =>
          rw [viewed] at held
          rw [meterSections_cons_other viewed]
          exact Except.bind_eq_error.mpr (Or.inl (refused held))

/-- What it costs to enter a function is passed to the metering function by the call that the code
starts with. -/
def PaysEntry (meter : Meter) (entry : Gas) (code : List Instruction) : Prop :=
  ∃ (constant : Instruction) (cost : Gas) (rest : List Instruction),
    meter.register.Passes cost constant ∧ entry.units ≤ cost.units ∧
      code = constant :: meter.invocation :: rest

/-- A body with instructions pays for its entry in its first charge. -/
theorem MetersBody.paysEntry {signature : Signature} {body metered : FunctionBody}
    {layout : List ChargedRun} (meters : meter.MetersBody signature body metered layout)
    (nonempty : body.code ≠ [])
    (priced : meter.tariff.signatureCost signature + meter.tariff.localsCost body.locals ≠ 0) :
    meter.PaysEntry (meter.tariff.signatureCost signature + meter.tariff.localsCost body.locals)
      metered.code := by
  obtain ⟨_, segments, charges, code⟩ := meters
  cases layout with
  | nil => exact absurd (List.map_eq_nil_iff.mp segments.flatten.symm) nonempty
  | cons first others =>
      rcases charges.1.empty_or_call with ⟨free, _⟩ | ⟨constant, passes, put⟩
      · have nothing := Gas.units_le_add _ _ |>.trans_eq (congrArg Gas.units free)
        exact absurd (Gas.ext (Nat.le_zero.mp nothing)) priced
      · refine ⟨constant, _, first.run ++ others.flatMap ChargedRun.code, passes, ?_, ?_⟩
        · exact (Gas.units_le_add _ _).trans (Gas.units_le_add _ _)
        · rw [code, List.flatMap_cons, ChargedRun.code, put]
          rfl

end Meter

namespace Module

variable {m metered : Module} {tariff : Tariff} {options : MeteringOptions} {gas : Gas}

/-- Whether the register holds every amount that is charged for runs of the module. -/
def Affordable (m : Module) (tariff : Tariff) (options : MeteringOptions) : Prop :=
  ∀ (i : Nat) (body : FunctionBody) (typeIndex : UInt32) (signature : Signature),
    (m.bodies?.getD [])[i]? = some body → (m.typeIndices?.getD [])[i]? = some typeIndex →
    (m.signatures?.getD [] ++ [options.signature])[typeIndex.toNat]? = some signature →
    ∀ amount ∈ (m.meterOf tariff options).amounts
        (tariff.signatureCost signature + tariff.localsCost body.locals)
        (runs (body.renumber m.importedFunctions).code).1,
      options.register.holds amount = true

/-- Whether what it costs to enter a function is charged at the start of its code, for each function
whose code is not empty. Empty code stays empty. -/
def EntriesPaid (m metered : Module) (tariff : Tariff) (options : MeteringOptions) : Prop :=
  ∀ (i : Nat) (body : FunctionBody), (m.bodies?.getD [])[i]? = some body →
    ∃ (typeIndex : UInt32) (signature : Signature) (other : FunctionBody),
      (m.typeIndices?.getD [])[i]? = some typeIndex ∧
      (m.signatures?.getD [] ++ [options.signature])[typeIndex.toNat]? = some signature ∧
      (metered.bodies?.getD [])[i]? = some other ∧
      (body.code = [] → other.code = []) ∧
      (body.code ≠ [] → tariff.signatureCost signature + tariff.localsCost body.locals ≠ 0 →
        (m.meterOf tariff options).PaysEntry
          (tariff.signatureCost signature + tariff.localsCost body.locals) other.code)

/-- In a module that is metered every entry is paid but those of empty bodies. -/
theorem entriesPaid_of_meter (done : m.meter tariff options = .ok (metered, gas)) :
    m.EntriesPaid metered tariff options := by
  intro i body there
  obtain ⟨typeIndex, signature, other, layout, declared, typed, found, meters⟩ :=
    metersBody_of_meter done there
  refine ⟨typeIndex, signature, other, declared, typed, found, ?_, meters.paysEntry⟩
  intro empty
  have none : Segments (body.renumber m.importedFunctions).code [] :=
    ⟨nofun, by rw [FunctionBody.renumber, empty]; rfl⟩
  have nothing : layout.map (·.run) = [] := none.unique meters.segments
  rw [meters.code, List.map_eq_nil_iff.mp nothing]
  rfl

/-- Where everything is affordable the register holds every amount. -/
theorem Affordable.bodyAmounts (affordable : m.Affordable tariff options) {entries : List Gas}
    (costs : WasmGas.entryCosts tariff (m.signatures?.getD [] ++ [options.signature])
      (m.importedFunctions + 1) (m.typeIndices?.getD []) = .ok entries) :
    ∀ amount ∈ (m.meterOf tariff options).bodyAmounts entries
        ((m.bodies?.getD []).map (·.renumber m.importedFunctions)),
      options.register.holds amount = true := by
  intro amount listed
  obtain ⟨i, body, typeIndex, signature, there, declared, typed, amounts⟩ :=
    (mem_bodyAmounts_iff costs).mp listed
  exact affordable i body typeIndex signature there declared typed amount amounts

/-- The body that is blamed is that of a function. -/
theorem place_lt_of_goesOn (meterable : m.Meterable options) {place : Nat}
    (first : (m.bodies?.getD []).findIdx? FunctionBody.goesOn = some place) :
    place < (m.typeIndices?.getD []).length := by
  obtain ⟨bound, _⟩ := List.findIdx?_eq_some_iff_getElem.mp first
  cases held : m.bodies? with
  | none =>
      rw [held] at bound
      cases bound
  | some bodies =>
      rw [held] at bound
      exact meterable.paired bodies held ▸ bound

/-- The first body that goes on is refused. -/
theorem meter_of_goesOn (meterable : m.Meterable options) (affordable : m.Affordable tariff options)
    {place : Nat} (first : (m.bodies?.getD []).findIdx? FunctionBody.goesOn = some place) :
    m.meter tariff options =
      .error (.missingTerminator (m.importedFunctions + 1 + UInt32.ofNat place)) := by
  obtain ⟨free, entries, known⟩ := meterable_iff.mp meterable
  have costs := (entryCosts_eq_ok known).2.2
  rw [signatures?_withMeteringImport, typeIndices?_withMeteringImport] at costs
  obtain ⟨bodies, held⟩ : ∃ bodies, m.bodies? = some bodies := by
    cases held : m.bodies? with
    | some bodies => exact ⟨bodies, rfl⟩
    | none =>
        rw [held] at first
        cases first
  have renumbered : (m.withMeteringImport options).bodies? =
      some (bodies.map (·.renumber m.importedFunctions)) := by
    rw [bodies?_withMeteringImport, held, Option.map_some]
  have holds := affordable.bodyAmounts costs
  rw [held, Option.getD_some] at first holds
  have counted : entries.length = (bodies.map (·.renumber m.importedFunctions)).length := by
    rw [(WasmGas.entryCosts_eq_ok costs).1, List.length_map, meterable.paired bodies held]
  have same : (bodies.map (·.renumber m.importedFunctions)).findIdx? FunctionBody.goesOn =
      some place := by
    have same : FunctionBody.goesOn ∘ (·.renumber m.importedFunctions) = FunctionBody.goesOn :=
      funext (FunctionBody.goesOn_renumber m.importedFunctions)
    rw [List.findIdx?_map, same, first]
  have refused := Meter.meterBodies_of_goesOn counted holds same (m.importedFunctions + 1)
  rw [meter_of_noConflict free, Meter.meterModule_of_entryCosts known]
  exact Except.bind_eq_error.mpr (Or.inl (Meter.meterSections_of_bodies renumbered refused))

/-- There are no fewer functions than those that are imported first and those that are defined. -/
theorem countP_add_length_le (m : Module) :
    (m.imports?.getD []).countP (·.isFunction) + (m.entries Section.typeIndices?).length ≤
      m.functionSpace.length := by
  obtain ⟨rest, imports, _⟩ :=
    (m.addImport_appends ⟨"", "", .function 0⟩).entriesOf_eq fun _ => rfl
  have all : m.entries Section.imports? = m.imports?.getD [] ++ rest := imports
  rw [functionSpace, List.length_append, definedFunctions, List.length_mapIdx, List.length_map,
    ← List.countP_eq_length_filter, all, List.countP_append]
  omega

/-- **Code has to end with a branch.** Of a module that passes the other checks, and whose charges
the register holds, the first body that goes on after its last branch is refused, and its function
is told by its index. If there is none, the module is metered, and each function whose code is not
empty is charged on entry. -/
theorem meter_missingTerminator (tariff : Tariff)
    (few : m.functionSpace.length + 1 < UInt32.size) (meterable : m.Meterable options)
    (affordable : m.Affordable tariff options) :
    (∀ place, (m.bodies?.getD []).findIdx? FunctionBody.goesOn = some place →
      ∃ function : UInt32, function.toNat = m.importedFunctions.toNat + 1 + place ∧
        m.meter tariff options = .error (.missingTerminator function)) ∧
    ((m.bodies?.getD []).findIdx? FunctionBody.goesOn = none →
      ∃ metered gas, m.meter tariff options = .ok (metered, gas)) ∧
    (∀ metered gas, m.meter tariff options = .ok (metered, gas) →
      m.EntriesPaid metered tariff options) := by
  refine ⟨?_, ?_, fun metered gas done => entriesPaid_of_meter done⟩
  · intro place first
    refine ⟨_, ?_, meter_of_goesOn meterable affordable first⟩
    have functions := m.countP_add_length_le
    rw [entries_typeIndices meterable.functions] at functions
    have imported := m.toNat_importedFunctions (by omega)
    have behind := place_lt_of_goesOn meterable first
    have size : UInt32.size = 2 ^ 32 := rfl
    rw [UInt32.toNat_add, UInt32.toNat_add, UInt32.toNat_ofNat_of_lt' (by omega), imported,
      UInt32.toNat_one]
    omega
  · intro none
    have finished : ∀ body ∈ m.bodies?.getD [],
        (runs (body.renumber m.importedFunctions).code).2 = [] := by
      intro body listed
      have ends := List.findIdx?_eq_none_iff.mp none body listed
      rw [← FunctionBody.goesOn_eq_false_iff, FunctionBody.goesOn_renumber, ends]
    obtain ⟨entries, costs, outcome⟩ := meter_outcome tariff meterable finished
    obtain ⟨⟨metered, gas⟩, done⟩ := outcome.exists_ok (affordable.bodyAmounts costs)
    exact ⟨metered, gas, done⟩

/-- A module whose second function goes on after its last branch. -/
def unterminated : Module where
  sections := [.types [⟨.func, [.i32], []⟩], .functions [0, 0],
    .code [⟨[], [⟨"end", none, none⟩]⟩, ⟨[⟨1, .i64⟩], [⟨"end", none, none⟩, ⟨"nop", none, none⟩]⟩]]

theorem meterable_unterminated : unterminated.Meterable {} where
  noConflict := nofun
  functions := by decide
  code := by decide
  paired := by
    intro bodies held
    cases held
    rfl
  typed := List.forall_mem_cons.mpr
    ⟨by decide, List.forall_mem_singleton.mpr (by decide)⟩

theorem affordable_unterminated : unterminated.Affordable unitTariff {} := by
  intro i body typeIndex signature there declared typed
  match i with
  | 0 | 1 =>
      cases there
      cases declared
      cases typed
      decide +kernel
  | _ + 2 => cases there

/-- A module whose second body goes on behind its last run. -/
theorem meter_missingTerminator_unterminated :
    unterminated.functionSpace.length + 1 < UInt32.size ∧ unterminated.Meterable {} ∧
      unterminated.Affordable unitTariff {} ∧ ∃ function : UInt32, function.toNat = 0 + 1 + 1 ∧
        unterminated.meter unitTariff {} = .error (.missingTerminator function) := by
  have few : unterminated.functionSpace.length + 1 < UInt32.size := by decide
  obtain ⟨refused, _, _⟩ :=
    meter_missingTerminator unitTariff few meterable_unterminated affordable_unterminated
  exact ⟨few, meterable_unterminated, affordable_unterminated, refused 1 (by decide)⟩

/-- A module whose function has a parameter and a local, but no instruction. -/
def bare : Module where
  sections := [.types [⟨.func, [.i32], []⟩], .functions [0], .code [⟨[⟨1, .i64⟩], []⟩]]

/-- What becomes of `bare`, whatever the prices are. -/
def bareMetered : Module where
  sections := [.types [⟨.func, [.i32], []⟩, ⟨.func, [.i64], []⟩],
    .imports [⟨"metering", "usegas", .function 1⟩], .functions [0], .code [⟨[⟨1, .i64⟩], []⟩]]

theorem meterable_bare : bare.Meterable {} where
  noConflict := nofun
  functions := by decide
  code := by decide
  paired := by
    intro bodies held
    cases held
    rfl
  typed := List.forall_mem_singleton.mpr (by decide)

theorem affordable_bare : bare.Affordable unitTariff {} := by
  intro i body typeIndex signature there declared typed
  match i with
  | 0 =>
      cases there
      exact nofun
  | _ + 1 => cases there

/-- The function of `bare` does not end with a branch, and to enter it costs 5. But the module is
accepted and nothing is charged. -/
theorem meter_bare :
    bare.functionSpace.length + 1 < UInt32.size ∧ bare.Meterable {} ∧
      bare.Affordable unitTariff {} ∧
      unitTariff.signatureCost ⟨.func, [.i32], []⟩ + unitTariff.localsCost [⟨1, .i64⟩] = .cap 5 ∧
      bare.meter unitTariff {} = .ok (bareMetered, 0) ∧
      bare.meter unitTariff {} ≠ .error (.missingTerminator 1) ∧
      (bareMetered.bodies?.getD []).map (·.code) = [[]] := by
  have accepted : bare.meter unitTariff {} = .ok (bareMetered, 0) := by decide +kernel
  refine ⟨by decide, meterable_bare, affordable_bare, by decide +kernel, accepted, ?_, rfl⟩
  rw [accepted]
  exact nofun

end Module

end WasmGas

import WasmGas.Proofs.Metering.Checks
import WasmGas.Proofs.Module.Entries

/-! # What is charged

The amounts that a body is charged run by run (`Meter.amounts`) come before any constant is made
of them. If the code is cut into runs without a rest, then charging comes out in one of two ways:
either the register holds each amount, and the gas is their sum, or an amount that it does not
hold is refused (`Register.Outcome`). This goes through from one run to the whole module
(`Module.meter_outcome`).
-/

namespace WasmGas

/-! ## Two ways to come out -/

/-- How it comes out to charge some amounts. -/
inductive Register.Outcome {α : Type} (register : Register) (gas : α → Gas) (amounts : List Gas) :
    Except MeteringError α → Prop
  | charged {result : α} : (∀ amount ∈ amounts, register.holds amount = true) →
      gas result = amounts.sum → Outcome register gas amounts (.ok result)
  | refused {amount : Gas} : amount ∈ amounts → register.holds amount = false →
      Outcome register gas amounts (.error (.costOverflow amount register))

namespace Register.Outcome

variable {α β γ : Type} {register : Register} {gas : α → Gas} {gas' : β → Gas} {total : γ → Gas}
  {amounts amounts' : List Gas}

/-- One thing is charged for, and then another. -/
theorem both {first : Except MeteringError α} {second : Except MeteringError β}
    {combine : α → β → γ} (one : Outcome register gas amounts first)
    (other : Outcome register gas' amounts' second)
    (adds : ∀ a b, total (combine a b) = gas a + gas' b) :
    Outcome register total (amounts ++ amounts') (do
      let a ← first
      let b ← second
      return combine a b) := by
  cases one with
  | refused listed tooMuch => exact .refused (List.mem_append_left _ listed) tooMuch
  | charged holds sum =>
      cases other with
      | refused listed tooMuch => exact .refused (List.mem_append_right _ listed) tooMuch
      | charged holds' sum' =>
          refine .charged (List.forall_mem_append.mpr ⟨holds, holds'⟩) ?_
          rw [adds, sum, sum', List.sum_append]

/-- What is put around a result without charging. -/
theorem map {first : Except MeteringError α} {change : α → β}
    (one : Outcome register gas amounts first) (same : ∀ a, gas' (change a) = gas a) :
    Outcome register gas' amounts (do
      let a ← first
      return change a) := by
  cases one with
  | refused listed tooMuch => exact .refused listed tooMuch
  | charged holds sum => exact .charged holds ((same _).trans sum)

/-- What is reported is the sum of the amounts. -/
theorem of_ok {result : α} (outcome : Outcome register gas amounts (.ok result)) :
    gas result = amounts.sum := by
  cases outcome with
  | charged _ sum => exact sum

end Register.Outcome

namespace Meter

variable (meter : Meter)

/-! ## Amounts -/

/-- The amount that is charged for a run of some price. -/
def amount (price : Gas) : Gas := if price = 0 then 0 else price + meter.ownCost

/-- The amounts that are charged for some runs. What is carried is charged with the first. -/
def amounts : (carried : Gas) → List (List Instruction) → List Gas
  | _, [] => []
  | carried, run :: others =>
    meter.amount (carried + (run.map meter.tariff.instructionCost).sum) :: amounts 0 others

/-- The amounts that are charged for bodies, as many as there are entry costs. -/
def bodyAmounts : List Gas → List FunctionBody → List Gas
  | entry :: entries, body :: bodies =>
    meter.amounts (entry + meter.tariff.localsCost body.locals) (runs body.code).1 ++
      bodyAmounts entries bodies
  | _, _ => []

theorem bodyAmounts_nil {entries : List Gas} : meter.bodyAmounts entries [] = [] := by
  cases entries <;> rfl

variable {meter}

/-- An amount is charged if it is one of some body with the cost of its own entry. -/
theorem mem_bodyAmounts_iff {entries : List Gas} {bodies : List FunctionBody} {amount : Gas} :
    amount ∈ meter.bodyAmounts entries bodies ↔ ∃ (i : Nat) (entry : Gas) (body : FunctionBody),
      entries[i]? = some entry ∧ bodies[i]? = some body ∧
        amount ∈ meter.amounts (entry + meter.tariff.localsCost body.locals)
          (runs body.code).1 := by
  induction bodies generalizing entries with
  | nil =>
      constructor
      · intro listed
        cases entries <;> cases listed
      · rintro ⟨i, entry, body, _, there, _⟩
        cases there
  | cons body others found =>
      cases entries with
      | nil =>
          constructor
          · intro listed
            cases listed
          · rintro ⟨i, entry, body, there, _, _⟩
            cases there
      | cons entry more =>
          rw [bodyAmounts, List.mem_append, found]
          constructor
          · rintro (here | ⟨i, cost, other, paid, there, listed⟩)
            · exact ⟨0, entry, body, rfl, rfl, here⟩
            · exact ⟨i + 1, cost, other, paid, there, listed⟩
          · rintro ⟨i, cost, other, paid, there, listed⟩
            cases i with
            | zero =>
                cases paid
                cases there
                exact Or.inl listed
            | succ i => exact Or.inr ⟨i, cost, other, paid, there, listed⟩

/-! ## Charging comes out in two ways -/

/-- A run is charged one amount, or refused if the register does not hold it. -/
theorem meterRun_outcome (carried : Gas) (run : List Instruction) :
    meter.register.Outcome MeteredCode.gas
      [meter.amount (carried + (run.map meter.tariff.instructionCost).sum)]
      (meter.meterRun meter.ownCost carried run) := by
  unfold meterRun amount
  dsimp only
  by_cases free : carried + (run.map meter.tariff.instructionCost).sum = 0
  · rw [if_pos free, if_pos free]
    refine .charged (List.forall_mem_singleton.mpr ?_) List.sum_singleton.symm
    cases meter.register <;> rfl
  · rw [if_neg free, if_neg free]
    unfold charge
    by_cases holds : meter.register.holds
        (carried + (run.map meter.tariff.instructionCost).sum + meter.ownCost) = true
    · obtain ⟨constant, _, called⟩ := call_eq_ok holds
      rw [if_pos holds, called]
      exact .charged (List.forall_mem_singleton.mpr holds) List.sum_singleton.symm
    · rw [if_neg holds]
      exact .refused List.mem_cons_self (eq_false_of_ne_true holds)

/-- Runs are charged their amounts, or the first that the register does not hold is refused. -/
theorem meterRuns_outcome (carried : Gas) (segments : List (List Instruction)) :
    meter.register.Outcome MeteredCode.gas (meter.amounts carried segments)
      (meter.meterRuns meter.ownCost carried segments) := by
  induction segments generalizing carried with
  | nil => exact .charged nofun rfl
  | cons run others rest => exact (meterRun_outcome carried run).both (rest 0) fun _ _ => rfl

/-- Code that ends with its last run is charged the amounts of its runs. -/
theorem meterCode_outcome {code : List Instruction} (finished : (runs code).2 = [])
    (entry : Gas) (function : UInt32) :
    meter.register.Outcome MeteredCode.gas (meter.amounts entry (runs code).1)
      (meter.meterCode meter.ownCost entry function code) := by
  -- Without a rest nothing comes after charging for the runs.
  have whole : meter.meterCode meter.ownCost entry function code =
      meter.meterRuns meter.ownCost entry (runs code).1 := by
    change (do
      let metered ← meter.meterRuns meter.ownCost entry (runs code).1
      if (runs code).2 = [] then return metered
      else throw (MeteringError.missingTerminator function)) = _
    simp only [finished, ↓reduceIte, bind_pure]
  rw [whole]
  exact meterRuns_outcome entry (runs code).1

/-- Bodies are charged their amounts in order, each with the cost of its own entry. -/
theorem meterBodies_outcome {bodies : List FunctionBody}
    (finished : ∀ body ∈ bodies, (runs body.code).2 = []) (function : UInt32)
    (entries : List Gas) :
    meter.register.Outcome Prod.snd (meter.bodyAmounts entries bodies)
      (meter.meterBodies meter.ownCost function entries bodies) := by
  induction bodies generalizing function entries with
  | nil =>
      cases entries <;> exact .charged nofun rfl
  | cons body others rest =>
      cases entries with
      | nil => exact .charged nofun rfl
      | cons entry more =>
          obtain ⟨one, further⟩ := List.forall_mem_cons.mp finished
          exact (meterCode_outcome one _ function).both (rest further (function + 1) more)
            fun _ _ => rfl

/-- Sections are charged the amounts of their bodies. -/
theorem meterSections_outcome {sections : List Section}
    (finished : ∀ body ∈ entriesOf Section.bodies? sections, (runs body.code).2 = [])
    (first : UInt32) (entries : List Gas) :
    meter.register.Outcome Prod.snd
      (entriesOf (fun content => content.bodies?.map (meter.bodyAmounts entries)) sections)
      (meter.meterSections meter.ownCost first entries sections) := by
  induction sections with
  | nil => exact .charged nofun rfl
  | cons head tail rest =>
      rw [entriesOf_cons] at finished ⊢
      obtain ⟨one, further⟩ := List.forall_mem_append.mp finished
      cases held : head.bodies? with
      | some bodies =>
          cases head <;> cases held
          exact (meterBodies_outcome one first entries).both (rest further) fun _ _ => rfl
      | none =>
          rw [meterSections_cons_other held]
          exact (rest further).map fun _ => rfl

/-- Once the entry costs are known, only the sections are left to charge for. -/
theorem meterModule_of_entryCosts {imported : Module} {entries : List Gas}
    (known : imported.entryCosts meter.tariff (meter.function + 1) = .ok entries) :
    meter.meterModule imported = (do
      let (sections, gas) ←
        meter.meterSections meter.ownCost (meter.function + 1) entries imported.sections
      return ({ imported with sections }, gas)) := by
  rw [meterModule, callCost_eq_ok]
  change (do
    let entries ← imported.entryCosts meter.tariff (meter.function + 1)
    let (sections, gas) ←
      meter.meterSections meter.ownCost (meter.function + 1) entries imported.sections
    return ({ imported with sections }, gas)) = _
  rw [known]
  rfl

end Meter

/-! ## The whole module -/

/-- A body whose last instruction is a branch has no instructions behind its last run. -/
theorem FunctionBody.finished_renumber {body : FunctionBody}
    (ends : ∀ last ∈ body.code.getLast?, last.isBranch = true) (insertion : UInt32) :
    (runs (body.renumber insertion).code).2 = [] := by
  refine runs_finished fun last listed => ?_
  rw [renumber, List.getLast?_map] at listed
  obtain ⟨original, ending, rfl⟩ := Option.map_eq_some_iff.mp listed
  rw [Instruction.isBranch, Instruction.name_renumber]
  exact ends original ending

namespace Module

variable {m : Module} {options : MeteringOptions}

/-- The first run of a body is charged with the signature of its function and with its locals. -/
theorem mem_bodyAmounts_iff {tariff : Tariff} {entries : List Gas} {amount : Gas}
    (costs : WasmGas.entryCosts tariff (m.signatures?.getD [] ++ [options.signature])
      (m.importedFunctions + 1) (m.typeIndices?.getD []) = .ok entries) :
    amount ∈ (m.meterOf tariff options).bodyAmounts entries
        ((m.bodies?.getD []).map (·.renumber m.importedFunctions)) ↔
      ∃ (i : Nat) (body : FunctionBody) (typeIndex : UInt32) (signature : Signature),
        (m.bodies?.getD [])[i]? = some body ∧ (m.typeIndices?.getD [])[i]? = some typeIndex ∧
        (m.signatures?.getD [] ++ [options.signature])[typeIndex.toNat]? = some signature ∧
        amount ∈ (m.meterOf tariff options).amounts
          (tariff.signatureCost signature + tariff.localsCost body.locals)
          (runs (body.renumber m.importedFunctions).code).1 := by
  obtain ⟨counted, each⟩ := WasmGas.entryCosts_eq_ok costs
  rw [Meter.mem_bodyAmounts_iff]
  constructor
  · intro ⟨i, entry, _, paid, moved, amounts⟩
    rw [List.getElem?_map] at moved
    obtain ⟨body, there, rfl⟩ := Option.map_eq_some_iff.mp moved
    obtain ⟨bound, _⟩ := List.getElem?_eq_some_iff.mp paid
    have declared := List.getElem?_eq_getElem (counted ▸ bound)
    obtain ⟨signature, typed, cost⟩ := each declared
    rw [paid] at cost
    cases cost
    exact ⟨i, body, _, signature, there, declared, typed, amounts⟩
  · intro ⟨i, body, typeIndex, signature, there, declared, typed, amounts⟩
    obtain ⟨_, same, paid⟩ := each declared
    rw [typed] at same
    cases same
    refine ⟨i, _, body.renumber m.importedFunctions, paid, ?_, amounts⟩
    rw [List.getElem?_map, there, Option.map_some]

/-- **Charging a module comes out in two ways.** If it passes the checks and its bodies are cut into
runs without a rest, then its gas is the sum of all amounts, unless one cannot be passed. -/
theorem meter_outcome (tariff : Tariff) (meterable : m.Meterable options)
    (finished : ∀ body ∈ m.bodies?.getD [],
      (runs (body.renumber m.importedFunctions).code).2 = []) :
    ∃ entries, WasmGas.entryCosts tariff (m.signatures?.getD [] ++ [options.signature])
        (m.importedFunctions + 1) (m.typeIndices?.getD []) = .ok entries ∧
      options.register.Outcome Prod.snd
        ((m.meterOf tariff options).bodyAmounts entries
          ((m.bodies?.getD []).map (·.renumber m.importedFunctions)))
        (m.meter tariff options) := by
  obtain ⟨free, entries, known⟩ := meterable_iff.mp meterable
  obtain ⟨single, _, costs⟩ := entryCosts_eq_ok known
  rw [signatures?_withMeteringImport, typeIndices?_withMeteringImport] at costs
  have bodies : (m.withMeteringImport options).bodies?.getD [] =
      (m.bodies?.getD []).map (·.renumber m.importedFunctions) := by
    rw [bodies?_withMeteringImport]
    cases m.bodies? <;> rfl
  have renumbered : ∀ body ∈ entriesOf Section.bodies? (m.withMeteringImport options).sections,
      (runs body.code).2 = [] := by
    intro body listed
    change body ∈ (m.withMeteringImport options).entries Section.bodies? at listed
    rw [entries_bodies single, bodies] at listed
    obtain ⟨original, inside, rfl⟩ := List.mem_map.mp listed
    exact finished original inside
  have amounts : entriesOf
      (fun content => content.bodies?.map ((m.meterOf tariff options).bodyAmounts entries))
      (m.withMeteringImport options).sections =
        (m.meterOf tariff options).bodyAmounts entries
          ((m.bodies?.getD []).map (·.renumber m.importedFunctions)) := by
    rw [← bodies]
    exact entriesOf_map_bodies (m.meterOf tariff options).bodyAmounts_nil single
  refine ⟨entries, costs, ?_⟩
  rw [meter_of_noConflict free, Meter.meterModule_of_entryCosts known, ← amounts]
  exact (@Meter.meterSections_outcome (m.meterOf tariff options) _ renumbered _ entries).map
    fun _ => rfl

end Module

end WasmGas

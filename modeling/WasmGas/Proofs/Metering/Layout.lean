import WasmGas.Metering.Renumber
import WasmGas.Proofs.Metering.Call
import WasmGas.Proofs.Metering.Runs

/-! # How metered code is laid out

Metered code is the runs of the code, each behind what is put in front of it
(`ChargedRun`). That is nothing if the run is free, and else a call with the price of the run
and of the call itself (`Meter.Pays`). The metering function is called nowhere else, so that
the code is got back by leaving out its calls (`withoutCalls_code`).
-/

namespace WasmGas

/-- A run, and what is put in front of it. -/
structure ChargedRun where
  charge : List Instruction
  run : List Instruction
  deriving DecidableEq, Repr

def ChargedRun.code (charged : ChargedRun) : List Instruction := charged.charge ++ charged.run

namespace Meter

variable (meter : Meter)

/-- What is put in front of a run of some price. -/
def Pays (price : Gas) (charge : List Instruction) : Prop :=
  if price = 0 then charge = []
  else ∃ constant, meter.register.Passes (price + meter.ownCost) constant ∧
    charge = [constant, meter.invocation]

/-- Each run is paid for. What is carried is paid with the first. -/
def Charges : (carried : Gas) → List ChargedRun → Prop
  | _, [] => True
  | carried, first :: others =>
    meter.Pays (carried + (first.run.map meter.tariff.instructionCost).sum) first.charge ∧
      Charges 0 others

variable {meter}

/-- What costs nothing is not charged, and everything else is charged by one call. -/
theorem Pays.empty_or_call {price : Gas} {charge : List Instruction}
    (pays : meter.Pays price charge) :
    (price = 0 ∧ charge = []) ∨ ∃ constant,
      meter.register.Passes (price + meter.ownCost) constant ∧
        charge = [constant, meter.invocation] := by
  unfold Pays at pays
  by_cases free : price = 0
  · rw [if_pos free] at pays
    exact Or.inl ⟨free, pays⟩
  · rw [if_neg free] at pays
    exact Or.inr pays

/-- A run has its charge before it. -/
theorem meterRun_eq_ok {carried : Gas} {run : List Instruction} {metered : MeteredCode}
    (done : meter.meterRun meter.ownCost carried run = .ok metered) :
    ∃ charge, meter.Pays (carried + (run.map meter.tariff.instructionCost).sum) charge ∧
      metered.code = charge ++ run := by
  unfold meterRun at done
  dsimp only at done
  by_cases free : carried + (run.map meter.tariff.instructionCost).sum = 0
  · rw [if_pos free] at done
    cases done
    refine ⟨[], ?_, rfl⟩
    rw [Pays, if_pos free]
  · rw [if_neg free] at done
    obtain ⟨charge, charged, put⟩ := Except.bind_eq_ok.mp done
    cases put
    refine ⟨charge, ?_, rfl⟩
    rw [Pays, if_neg free]
    exact charge_eq_ok charged

/-- Runs have their charges before them, in their order. -/
theorem meterRuns_eq_ok {carried : Gas} {segments : List (List Instruction)}
    {metered : MeteredCode}
    (done : meter.meterRuns meter.ownCost carried segments = .ok metered) :
    ∃ layout : List ChargedRun, layout.map (·.run) = segments ∧ meter.Charges carried layout ∧
      metered.code = layout.flatMap ChargedRun.code := by
  induction segments generalizing carried metered with
  | nil =>
      cases done
      exact ⟨[], rfl, trivial, rfl⟩
  | cons run others laidOut =>
      obtain ⟨first, one, rest⟩ := Except.bind_eq_ok.mp done
      obtain ⟨last, further, put⟩ := Except.bind_eq_ok.mp rest
      cases put
      obtain ⟨charge, pays, front⟩ := meterRun_eq_ok one
      obtain ⟨layout, rfl, charges, behind⟩ := laidOut further
      refine ⟨⟨charge, run⟩ :: layout, rfl, ⟨pays, charges⟩, ?_⟩
      rw [List.flatMap_cons, front, behind]
      rfl

/-- Code that is charged for consists of its runs. -/
theorem meterCode_eq_ok {entry : Gas} {function : UInt32} {code : List Instruction}
    {metered : MeteredCode}
    (done : meter.meterCode meter.ownCost entry function code = .ok metered) :
    ∃ layout : List ChargedRun, Segments code (layout.map (·.run)) ∧ meter.Charges entry layout ∧
      metered.code = layout.flatMap ChargedRun.code := by
  obtain ⟨found, charged, rest⟩ := Except.bind_eq_ok.mp done
  by_cases finished : (runs code).2 = []
  · rw [if_pos finished] at rest
    cases rest
    obtain ⟨layout, same, charges, laidOut⟩ := meterRuns_eq_ok charged
    exact ⟨layout, same ▸ segments_runs finished, charges, laidOut⟩
  · rw [if_neg finished] at rest
    cases rest

variable (meter) in
/-- What becomes of the body of a function with some signature. The direct calls in it go where
they went, whatever index that has now. -/
structure MetersBody (signature : Signature) (body metered : FunctionBody)
    (layout : List ChargedRun) : Prop where
  locals : metered.locals = body.locals
  segments : Segments (body.renumber meter.function).code (layout.map (·.run))
  charges : meter.Charges
    (meter.tariff.signatureCost signature + meter.tariff.localsCost body.locals) layout
  code : metered.code = layout.flatMap ChargedRun.code

end Meter

/-! ## Leaving out the calls -/

/-- Code without the direct calls of a function and what stands right before them. -/
def withoutCalls (function : UInt32) : List Instruction → List Instruction
  | [] => []
  | instruction :: rest =>
    if instruction.callTarget? = some function ∨
        (rest.head?.bind Instruction.callTarget?) = some function then withoutCalls function rest
    else instruction :: withoutCalls function rest

/-- No call is taken out of a run that has none of its own. -/
theorem withoutCalls_append {function : UInt32} {run : List Instruction}
    (silent : ∀ instruction ∈ run, instruction.callTarget? ≠ some function)
    {rest : List Instruction}
    (next : (rest.head?.bind Instruction.callTarget?) ≠ some function) :
    withoutCalls function (run ++ rest) = run ++ withoutCalls function rest := by
  induction run with
  | nil => rfl
  | cons head tail kept =>
      obtain ⟨first, others⟩ := List.forall_mem_cons.mp silent
      have following : ((tail ++ rest).head?.bind Instruction.callTarget?) ≠ some function := by
        cases tail with
        | nil => exact next
        | cons second more => exact others second List.mem_cons_self
      rw [List.cons_append, withoutCalls, if_neg (not_or.mpr ⟨first, following⟩), kept others,
        List.cons_append]

variable {meter : Meter}

/-- What passes an amount calls nothing. -/
theorem Register.Passes.callTarget?_eq_none {register : Register} {cost : Gas}
    {constant : Instruction} (passes : register.Passes cost constant) :
    constant.callTarget? = none := by
  cases register <;> obtain ⟨_, _, rfl⟩ := passes <;> rfl

/-- A charge calls the metering function. -/
theorem Meter.callTarget?_invocation (meter : Meter) :
    meter.invocation.callTarget? = some meter.function := rfl

/-- A charge is left out altogether. -/
theorem withoutCalls_charge {price : Gas} {charge : List Instruction}
    (pays : meter.Pays price charge) (rest : List Instruction) :
    withoutCalls meter.function (charge ++ rest) = withoutCalls meter.function rest := by
  rcases pays.empty_or_call with ⟨_, rfl⟩ | ⟨constant, _, rfl⟩
  · rfl
  · have before : (([meter.invocation] ++ rest).head?.bind Instruction.callTarget?) =
      some meter.function := rfl
    rw [List.cons_append, withoutCalls, if_pos (Or.inr before), List.singleton_append,
      withoutCalls, if_pos (Or.inl meter.callTarget?_invocation)]

/-- Metered code does not begin with the call of a charge. -/
theorem head?_code_ne {carried : Gas} {layout : List ChargedRun}
    (charges : meter.Charges carried layout)
    (silent : ∀ charged ∈ layout, ∀ instruction ∈ charged.run,
      instruction.callTarget? ≠ some meter.function) :
    (layout.flatMap ChargedRun.code).head?.bind Instruction.callTarget? ≠
      some meter.function := by
  induction layout generalizing carried with
  | nil => exact nofun
  | cons first others next =>
      obtain ⟨pays, rest⟩ := charges
      obtain ⟨one, more⟩ := List.forall_mem_cons.mp silent
      rw [List.flatMap_cons, ChargedRun.code]
      rcases pays.empty_or_call with ⟨_, empty⟩ | ⟨constant, passes, front⟩
      · rw [empty, List.nil_append]
        cases run : first.run with
        | nil => exact next rest more
        | cons head tail =>
            rw [run] at one
            exact one head List.mem_cons_self
      · rw [front, List.cons_append, List.cons_append, List.head?_cons, Option.bind_some,
          passes.callTarget?_eq_none]
        exact nofun

/-- **The calls can be told apart.** What is left without them is the code. -/
theorem withoutCalls_code {carried : Gas} {layout : List ChargedRun}
    (charges : meter.Charges carried layout)
    (silent : ∀ charged ∈ layout, ∀ instruction ∈ charged.run,
      instruction.callTarget? ≠ some meter.function) :
    withoutCalls meter.function (layout.flatMap ChargedRun.code) =
      (layout.map (·.run)).flatten := by
  induction layout generalizing carried with
  | nil => rfl
  | cons first others left =>
      obtain ⟨pays, rest⟩ := charges
      obtain ⟨one, more⟩ := List.forall_mem_cons.mp silent
      rw [List.flatMap_cons, ChargedRun.code, List.append_assoc, withoutCalls_charge pays,
        withoutCalls_append one (head?_code_ne rest more), left rest more]
      rfl

end WasmGas

import WasmGas.Proofs.Metering.Amounts
import WasmGas.Proofs.Metering.FunctionSpace
import WasmGas.Proofs.Metering.Prepaid

/-! # The gas that is reported

Beside the metered module comes an amount of gas. It can be read off the code as well: the metering
function is called only where a call was put in, a constant stands right before each call
(`Module.beforeCalls`), and the constants add up to the gas that is reported
(`Module.meter_gas`).
-/

namespace WasmGas

/-- What stands right before each direct call of a function. -/
def beforeCalls (function : UInt32) : (before : Option Instruction) → List Instruction →
    List (Option Instruction)
  | _, [] => []
  | before, instruction :: rest =>
    if instruction.callTarget? = some function then
      before :: beforeCalls function (some instruction) rest
    else beforeCalls function (some instruction) rest

/-- What stands right before each direct call of a function in the bodies of a module. -/
def Module.beforeCalls (m : Module) (function : UInt32) : List (Option Instruction) :=
  (m.entries Section.bodies?).flatMap fun body => WasmGas.beforeCalls function none body.code

/-- The sum of some constants. -/
def sumOfConstants (constants : List (Option Instruction)) : Int :=
  (constants.map fun constant => (constant.bind Instruction.integer?).getD 0).sum

/-- Constants of a register that add up to some amounts, however much that is. -/
structure Register.AddUp (register : Register) (constants : List (Option Instruction))
    (amounts : List Gas) : Prop where
  passes : ∀ found ∈ constants, ∃ constant cost, found = some constant ∧
    register.Passes cost constant
  sum : sumOfConstants constants = (amounts.map Gas.units).sum

namespace Register.AddUp

variable {register : Register} {constants constants' : List (Option Instruction)}
  {amounts amounts' : List Gas}

theorem nil : register.AddUp [] [] where
  passes := nofun
  sum := rfl

theorem append (one : register.AddUp constants amounts)
    (other : register.AddUp constants' amounts') :
    register.AddUp (constants ++ constants') (amounts ++ amounts') where
  passes := List.forall_mem_append.mpr ⟨one.passes, other.passes⟩
  sum := by
    rw [sumOfConstants, List.map_append, List.sum_append, List.map_append, List.sum_append,
      Nat.cast_add, ← one.sum, ← other.sum]
    rfl

/-- A free run needs no constant. -/
theorem free : register.AddUp [] [0] where
  passes := nofun
  sum := rfl

/-- A call charges the amount that its constant says. -/
theorem singleton (integer : register = .i32 ∨ register = .i64) {cost : Gas}
    {constant : Instruction} (passes : register.Passes cost constant) :
    register.AddUp [some constant] [cost] where
  passes := List.forall_mem_singleton.mpr ⟨constant, cost, rfl, passes⟩
  sum := by
    rw [sumOfConstants, List.map_singleton, List.sum_singleton, Option.bind_some,
      (passes.integer?_eq integer).1, Option.getD_some, List.map_singleton, List.sum_singleton]

end Register.AddUp

/-! ## Calls in a body -/

/-- Code without such calls only changes what stands before the rest. -/
theorem beforeCalls_append {function : UInt32} {run : List Instruction}
    (silent : ∀ instruction ∈ run, instruction.callTarget? ≠ some function)
    (before : Option Instruction) (rest : List Instruction) :
    ∃ last, beforeCalls function before (run ++ rest) = beforeCalls function last rest := by
  induction run generalizing before with
  | nil => exact ⟨before, rfl⟩
  | cons head tail passed =>
      obtain ⟨first, others⟩ := List.forall_mem_cons.mp silent
      obtain ⟨last, same⟩ := passed others (some head)
      refine ⟨last, ?_⟩
      rw [List.cons_append, beforeCalls, if_neg first, same]

namespace Meter

variable {meter : Meter} (integer : meter.register = .i32 ∨ meter.register = .i64)

include integer

/-- What is put in front of a run has the amount for the run right before its call. -/
theorem Pays.beforeCalls {price : Gas} {charge : List Instruction} (pays : meter.Pays price charge)
    (before : Option Instruction) (rest : List Instruction) :
    ∃ constants last, beforeCalls meter.function before (charge ++ rest) =
        constants ++ beforeCalls meter.function last rest ∧
      meter.register.AddUp constants [meter.amount price] := by
  by_cases free : price = 0
  · rw [Pays, if_pos free] at pays
    rw [pays, amount, if_pos free]
    exact ⟨[], before, rfl, .free⟩
  · rw [Pays, if_neg free] at pays
    obtain ⟨constant, passes, rfl⟩ := pays
    have quiet : constant.callTarget? ≠ some meter.function := by
      rw [passes.callTarget?_eq_none]
      exact (Option.some_ne_none _).symm
    rw [amount, if_neg free]
    refine ⟨[some constant], some meter.invocation, ?_, .singleton integer passes⟩
    rw [List.cons_append, WasmGas.beforeCalls, if_neg quiet, List.singleton_append,
      WasmGas.beforeCalls, if_pos meter.callTarget?_invocation, List.singleton_append]

/-- The constants before the calls of charged code say its amounts. -/
theorem Charges.beforeCalls {carried : Gas} {layout : List ChargedRun}
    (charges : meter.Charges carried layout)
    (silent : ∀ charged ∈ layout, ∀ instruction ∈ charged.run,
      instruction.callTarget? ≠ some meter.function) (before : Option Instruction) :
    meter.register.AddUp (beforeCalls meter.function before (layout.flatMap ChargedRun.code))
      (meter.amounts carried (layout.map (·.run))) := by
  induction layout generalizing carried before with
  | nil => exact .nil
  | cons first others addUp =>
      obtain ⟨pays, rest⟩ := charges
      obtain ⟨one, more⟩ := List.forall_mem_cons.mp silent
      obtain ⟨constants, last, front, paid⟩ :=
        pays.beforeCalls integer before (first.run ++ others.flatMap ChargedRun.code)
      obtain ⟨behind, passed⟩ := beforeCalls_append one last (others.flatMap ChargedRun.code)
      rw [List.flatMap_cons, ChargedRun.code, List.append_assoc, front, passed, List.map_cons,
        amounts, ← List.singleton_append]
      exact paid.append (addUp rest more behind)

/-- The constants in metered bodies add up to what is reported. -/
theorem meterBodies_addUp {first : UInt32} {entries : List Gas} {bodies others : List FunctionBody}
    {gas : Gas} (paired : entries.length = bodies.length)
    (silent : ∀ body ∈ bodies, ∀ instruction ∈ body.code,
      instruction.callTarget? ≠ some meter.function)
    (done : meter.meterBodies meter.ownCost first entries bodies = .ok (others, gas)) :
    meter.register.AddUp (others.flatMap fun body => beforeCalls meter.function none body.code)
      (meter.bodyAmounts entries bodies) := by
  induction bodies generalizing first entries others gas with
  | nil =>
      obtain rfl := List.length_eq_zero_iff.mp paired
      cases done
      exact .nil
  | cons body behind addUp =>
      cases entries with
      | nil => cases paired
      | cons entry more =>
          obtain ⟨one, quiet⟩ := List.forall_mem_cons.mp silent
          obtain ⟨code, charged, rest⟩ := Except.bind_eq_ok.mp done
          obtain ⟨⟨remaining, further⟩, last, put⟩ := Except.bind_eq_ok.mp rest
          cases put
          obtain ⟨layout, segments, charges, laidOut⟩ := meterCode_eq_ok charged
          have original : ∀ charged ∈ layout, ∀ instruction ∈ charged.run,
              instruction.callTarget? ≠ some meter.function :=
            fun charged listed instruction inside =>
              one instruction (segments.mem (List.mem_map_of_mem listed) inside)
          rw [List.flatMap_cons, bodyAmounts, laidOut, runs_of_segments segments]
          exact (charges.beforeCalls integer original none).append
            (addUp (Nat.succ.inj paired) quiet last)

end Meter

namespace Module

variable {m metered : Module} {tariff : Tariff} {options : MeteringOptions} {gas : Gas}

/-- Bodies that are metered end with their last run. -/
theorem finished_of_meter (done : m.meter tariff options = .ok (metered, gas)) :
    ∀ body ∈ m.bodies?.getD [], (runs (body.renumber m.importedFunctions).code).2 = [] := by
  intro body listed
  obtain ⟨i, there⟩ := List.getElem?_of_mem listed
  obtain ⟨_, _, _, layout, _, _, _, meters⟩ := metersBody_of_meter done there
  have cut : Segments (body.renumber m.importedFunctions).code (layout.map (·.run)) :=
    meters.segments
  rw [runs_of_segments cut]

/-- The constants in front of the calls add up to what is charged for the bodies. -/
theorem beforeCalls_addUp (integer : options.register = .i32 ∨ options.register = .i64)
    (few : (m.imports?.getD []).countP (·.isFunction) + 1 < UInt32.size)
    (done : m.meter tariff options = .ok (metered, gas)) {entries : List Gas}
    (costs : WasmGas.entryCosts tariff (m.signatures?.getD [] ++ [options.signature])
      (m.importedFunctions + 1) (m.typeIndices?.getD []) = .ok entries) :
    options.register.AddUp (metered.beforeCalls m.importedFunctions)
      ((m.meterOf tariff options).bodyAmounts entries
        ((m.bodies?.getD []).map (·.renumber m.importedFunctions))) := by
  rw [beforeCalls, bodies_of_meter done]
  cases held : m.bodies? with
  | none =>
      have none : metered.bodies?.getD [] = [] := by
        refine List.length_eq_zero_iff.mp ?_
        rw [length_bodies_of_meter done, held]
        rfl
      rw [none, Option.getD_none, List.map_nil, Meter.bodyAmounts_nil]
      exact .nil
  | some bodies =>
      obtain ⟨entries', others, more, costs', paired, result, one⟩ := meterBodies_of_meter done held
      rw [costs] at costs'
      cases costs'
      rw [result, Option.getD_some, Option.getD_some]
      refine @Meter.meterBodies_addUp (m.meterOf tariff options) integer _ _ _ _ _ ?_ ?_ one
      · rw [paired, List.length_map]
      · intro body listed instruction inside
        obtain ⟨original, _, rfl⟩ := List.mem_map.mp listed
        exact callTarget?_ne_of_mem few inside

/-- Where the metering function is called in a metered body, the call was put in. -/
theorem injected_of_callTarget? (few : (m.imports?.getD []).countP (·.isFunction) + 1 < UInt32.size)
    {signature : Signature} {body other : FunctionBody} {layout : List ChargedRun}
    (meters : (m.meterOf tariff options).MetersBody signature body other layout) {placed : Placed}
    (listed : placed ∈ layout.flatMap ChargedRun.placed)
    (called : placed.instruction.callTarget? = some m.importedFunctions) :
    placed.injected = true := by
  obtain ⟨charged, inside, here⟩ := List.mem_flatMap.mp listed
  rcases List.mem_append.mp here with front | run
  · obtain ⟨instruction, _, rfl⟩ := List.mem_map.mp front
    rfl
  · obtain ⟨instruction, original, rfl⟩ := List.mem_map.mp run
    have kept : instruction ∈ (body.renumber m.importedFunctions).code :=
      meters.segments.mem (List.mem_map_of_mem inside) original
    exact absurd called (callTarget?_ne_of_mem few kept)

/-- **The gas that is reported is what the code charges.** Right before each call of the metering
function stands a constant of the register, and the gas is the sum of these constants, unless that
is beyond the greatest amount. None of the calls is an original one. -/
theorem meter_gas (integer : options.register = .i32 ∨ options.register = .i64)
    (few : (m.imports?.getD []).countP (·.isFunction) + 1 < UInt32.size)
    (done : m.meter tariff options = .ok (metered, gas)) :
    (∀ before ∈ metered.beforeCalls m.importedFunctions, ∃ constant cost,
        before = some constant ∧ options.register.Passes cost constant) ∧
      (gas.units : Int) = min (sumOfConstants (metered.beforeCalls m.importedFunctions)) gasLimit ∧
      ∀ (i : Nat) (other : FunctionBody), (metered.entries Section.bodies?)[i]? = some other →
        ∃ (body : FunctionBody) (signature : Signature) (layout : List ChargedRun),
          (m.entries Section.bodies?)[i]? = some body ∧
          (m.meterOf tariff options).MetersBody signature body other layout ∧
          (layout.flatMap ChargedRun.placed).map (·.instruction) = other.code ∧
          ∀ placed ∈ layout.flatMap ChargedRun.placed,
            placed.instruction.callTarget? = some m.importedFunctions → placed.injected = true := by
  have meterable := meterable_of_meter done
  obtain ⟨entries, costs, outcome⟩ := meter_outcome tariff meterable (finished_of_meter done)
  have addUp := beforeCalls_addUp integer few done costs
  rw [done] at outcome
  refine ⟨addUp.passes, ?_, ?_⟩
  · have total : gas.units = _ := congrArg Gas.units outcome.of_ok
    rw [Gas.units_sum] at total
    rw [addUp.sum]
    omega
  · intro i other found
    rw [bodies_of_meter done] at found
    obtain ⟨bound, _⟩ := List.getElem?_eq_some_iff.mp found
    rw [length_bodies_of_meter done] at bound
    have there := List.getElem?_eq_getElem bound
    obtain ⟨_, signature, same, layout, _, _, result, meters⟩ := metersBody_of_meter done there
    rw [found] at result
    cases result
    refine ⟨_, signature, layout, ?_, meters, meters.map_instruction, ?_⟩
    · rw [entries_bodies meterable.code, there]
    · intro placed listed called
      exact injected_of_callTarget? few meters listed called

/-- `looping` is charged four times. -/
theorem meter_gas_looping :
    (looping.imports?.getD []).countP (·.isFunction) + 1 < UInt32.size ∧
      looping.meter unitTariff {} = .ok (loopingMetered, .cap 19) ∧
      loopingMetered.beforeCalls 1 = [8, 5, 3, 3].map (fun amount =>
        some ⟨"const", some .i64, some (.int64 amount)⟩) ∧
      (19 : Int) = min (sumOfConstants (loopingMetered.beforeCalls 1)) gasLimit := by
  have few : (looping.imports?.getD []).countP (·.isFunction) + 1 < UInt32.size := by decide
  have done : looping.meter unitTariff {} = .ok (loopingMetered, .cap 19) := by decide +kernel
  obtain ⟨_, total, _⟩ := meter_gas (Or.inr rfl) few done
  exact ⟨few, done, by decide, total⟩

end Module

end WasmGas

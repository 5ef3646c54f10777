import WasmGas.Proofs.Metering.Amounts
import WasmGas.Proofs.Metering.Prepaid
import WasmGas.Proofs.Price.Exact

/-! # No charge is cut off

Sums of gas stop at the greatest amount, but no integer register holds as much. So a module is
refused exactly if the price of some run and its call, in unbounded numbers, is more than the
register holds (`Module.Overflows`), and otherwise every constant is such a price, however the
sums on the way to it were taken (`Module.meter_exact`).
-/

namespace WasmGas

/-- The greatest amount that an integer register holds. -/
def Register.greatest? : Register → Option Nat
  | i32 => some 0x7fffffff
  | i64 => some 0x7fffffffffffffff
  | f32 => none
  | f64 => none

namespace Register

variable {register : Register} {greatest : Nat}

/-- A register with a greatest amount is one of integers. -/
theorem integer_of_greatest? (integer : register.greatest? = some greatest) :
    register = .i32 ∨ register = .i64 := by
  cases register <;> first | exact Or.inl rfl | exact Or.inr rfl | cases integer

/-- To be cut off does not make an amount pass. -/
theorem holds_cap_iff (integer : register.greatest? = some greatest) {amount : Nat} :
    register.holds (.cap amount) = true ↔ amount ≤ greatest := by
  have limit := Gas.gasLimit_eq
  have units : (Gas.cap amount).units = min amount gasLimit := rfl
  cases register with
  | i32 =>
      cases integer
      rw [holds, decide_eq_true_iff, units]
      omega
  | i64 =>
      cases integer
      rw [holds, decide_eq_true_iff, units]
      omega
  | f32 => cases integer
  | f64 => cases integer

end Register

/-! ## Exact prices of runs -/

namespace Tariff

variable (tariff : Tariff)

/-- What the constant and the call in front of a run cost exactly. -/
def exactCall : Nat :=
  (tariff.instructions.priceName "const" 0).units + (tariff.instructions.priceName "call" 0).units

/-- What runs cost exactly. What is carried is paid with the first. -/
def exactPrices : (carried : Nat) → List (List Instruction) → List Nat
  | _, [] => []
  | carried, run :: others => (carried + tariff.total run) :: exactPrices 0 others

/-- What a run costs is its exact cost, capped. -/
theorem sum_instructionCost_eq_cap (run : List Instruction) :
    (run.map tariff.instructionCost).sum = .cap (tariff.total run) :=
  Gas.sum_eq_cap (fun _ => (Gas.cap_units _).symm) run

end Tariff

namespace Meter

variable {meter : Meter}

/-- What a charge costs is its exact cost, capped. -/
theorem ownCost_eq_cap : meter.ownCost = .cap meter.tariff.exactCall := by
  rw [ownCost, Tariff.exactCall, Gas.cap_add, Gas.cap_units, Gas.cap_units]
  simp only [List.map_cons, List.map_nil, List.sum_cons, List.sum_nil, add_zero]

variable (meter) in
/-- What is charged exactly for a run of some price. -/
def exactAmount (price : Nat) : Nat := if price = 0 then 0 else price + meter.tariff.exactCall

/-- The amount for a price is exact, capped. -/
theorem amount_eq_cap (price : Nat) :
    meter.amount (.cap price) = .cap (meter.exactAmount price) := by
  by_cases free : price = 0
  · rw [amount, exactAmount, if_pos (Gas.cap_eq_zero_iff.mpr free), if_pos free]
    rfl
  · rw [amount, exactAmount, if_neg (mt Gas.cap_eq_zero_iff.mp free), if_neg free, ownCost_eq_cap,
      ← Gas.cap_add]

/-- The amounts for runs are exact, capped. -/
theorem amounts_eq_cap (carried : Nat) (segments : List (List Instruction)) :
    meter.amounts (.cap carried) segments =
      (meter.tariff.exactPrices carried segments).map
        fun price => .cap (meter.exactAmount price) := by
  induction segments generalizing carried with
  | nil => rfl
  | cons run others same =>
      rw [amounts, meter.tariff.sum_instructionCost_eq_cap, ← Gas.cap_add, amount_eq_cap]
      exact congrArg _ (same 0)

/-- What is put in front of a run of some price passes exactly that price and the price of
the call, and nothing if the run is free. -/
def PaysExactly (meter : Meter) (price : Nat) (charge : List Instruction) : Prop :=
  if price = 0 then charge = []
  else ∃ constant cost, meter.register.Passes cost constant ∧
    cost.units = price + meter.tariff.exactCall ∧ charge = [constant, meter.invocation]

/-- What an integer passes is the exact amount. -/
theorem Pays.exactly {greatest : Nat} (integer : meter.register.greatest? = some greatest)
    {price : Nat} {charge : List Instruction} (pays : meter.Pays (.cap price) charge) :
    meter.PaysExactly price charge := by
  unfold Pays at pays
  by_cases free : price = 0
  · rw [if_pos (Gas.cap_eq_zero_iff.mpr free)] at pays
    rw [PaysExactly, if_pos free]
    exact pays
  · rw [if_neg (mt Gas.cap_eq_zero_iff.mp free), ownCost_eq_cap, ← Gas.cap_add] at pays
    obtain ⟨constant, passes, put⟩ := pays
    obtain ⟨_, below⟩ := passes.integer?_eq (Register.integer_of_greatest? integer)
    rw [PaysExactly, if_neg free]
    refine ⟨constant, _, passes, ?_, put⟩
    -- What passes is less than the greatest amount, so nothing was cut off.
    have units : (Gas.cap (price + meter.tariff.exactCall)).units =
      min (price + meter.tariff.exactCall) gasLimit := rfl
    omega

/-- Each run is paid for exactly. -/
def ChargesExactly (meter : Meter) (carried : Nat) (layout : List ChargedRun) : Prop :=
  List.Forall₂ (fun price charged => meter.PaysExactly price charged.charge)
    (meter.tariff.exactPrices carried (layout.map (·.run))) layout

/-- What integers pass are the exact amounts. -/
theorem Charges.exactly {greatest : Nat} (integer : meter.register.greatest? = some greatest)
    {carried : Nat} {layout : List ChargedRun} (charges : meter.Charges (.cap carried) layout) :
    meter.ChargesExactly carried layout := by
  induction layout generalizing carried with
  | nil => exact .nil
  | cons first others exact =>
      obtain ⟨pays, rest⟩ := charges
      rw [meter.tariff.sum_instructionCost_eq_cap, ← Gas.cap_add] at pays
      exact .cons (pays.exactly integer) (exact rest)

end Meter

/-! ## Exactness -/

namespace Module

variable {m : Module} {tariff : Tariff} {options : MeteringOptions} {greatest : Nat}

/-- Whether some run that is not free, with the call in front of it, costs more than `greatest`.
The first run of a body has to pay for the signature and the locals of its function as well. -/
def Overflows (m : Module) (tariff : Tariff) (options : MeteringOptions) (greatest : Nat) : Prop :=
  ∃ (i : Nat) (body : FunctionBody) (typeIndex : UInt32) (signature : Signature)
    (segments : List (List Instruction)),
    (m.bodies?.getD [])[i]? = some body ∧ (m.typeIndices?.getD [])[i]? = some typeIndex ∧
    (m.signatures?.getD [] ++ [options.signature])[typeIndex.toNat]? = some signature ∧
    Segments (body.renumber m.importedFunctions).code segments ∧
    ∃ price ∈ tariff.exactPrices
        (tariff.exactSignature signature + tariff.exactLocals body.locals) segments,
      0 < price ∧ greatest < price + tariff.exactCall

/-- Whether every run of every body is paid for exactly. -/
def ChargedExactly (m metered : Module) (tariff : Tariff) (options : MeteringOptions) : Prop :=
  ∀ (i : Nat) (body : FunctionBody), (m.bodies?.getD [])[i]? = some body →
    ∃ (typeIndex : UInt32) (signature : Signature) (other : FunctionBody)
      (layout : List ChargedRun),
      (m.typeIndices?.getD [])[i]? = some typeIndex ∧
      (m.signatures?.getD [] ++ [options.signature])[typeIndex.toNat]? = some signature ∧
      (metered.bodies?.getD [])[i]? = some other ∧
      Segments (body.renumber m.importedFunctions).code (layout.map (·.run)) ∧
      other.code = layout.flatMap ChargedRun.code ∧
      (m.meterOf tariff options).ChargesExactly
        (tariff.exactSignature signature + tariff.exactLocals body.locals) layout

theorem entry_eq_cap (tariff : Tariff) (signature : Signature) (groups : List LocalGroup) :
    tariff.signatureCost signature + tariff.localsCost groups =
      .cap (tariff.exactSignature signature + tariff.exactLocals groups) := by
  rw [Gas.cap_add, ← tariff.signatureCost_eq_cap, ← tariff.localsCost_eq_cap]

/-- A module that is metered is charged exactly. -/
theorem chargedExactly_of_meter {metered : Module} {gas : Gas}
    (integer : options.register.greatest? = some greatest)
    (done : m.meter tariff options = .ok (metered, gas)) :
    m.ChargedExactly metered tariff options := by
  intro i body there
  obtain ⟨typeIndex, signature, other, layout, declared, typed, found, meters⟩ :=
    metersBody_of_meter done there
  have charges : (m.meterOf tariff options).Charges
      (tariff.signatureCost signature + tariff.localsCost body.locals) layout := meters.charges
  rw [entry_eq_cap] at charges
  exact ⟨typeIndex, signature, other, layout, declared, typed, found, meters.segments, meters.code,
    charges.exactly integer⟩

/-- The register refuses an amount exactly if some price with its call is too high for it. -/
theorem refuses_iff (meter : Meter) (integer : meter.register.greatest? = some greatest)
    {carried : Nat} {segments : List (List Instruction)} :
    (∃ amount ∈ meter.amounts (.cap carried) segments, meter.register.holds amount = false) ↔
      ∃ price ∈ meter.tariff.exactPrices carried segments,
        0 < price ∧ greatest < price + meter.tariff.exactCall := by
  have refused (price : Nat) : meter.register.holds (.cap (meter.exactAmount price)) = false ↔
      0 < price ∧ greatest < price + meter.tariff.exactCall := by
    rw [← Bool.not_eq_true, Register.holds_cap_iff integer, Meter.exactAmount]
    by_cases free : price = 0
    · rw [if_pos free]
      omega
    · rw [if_neg free]
      omega
  rw [Meter.amounts_eq_cap]
  constructor
  · rintro ⟨_, listed, tooMuch⟩
    obtain ⟨price, priced, rfl⟩ := List.mem_map.mp listed
    exact ⟨price, priced, (refused price).mp tooMuch⟩
  · rintro ⟨price, priced, tooMuch⟩
    exact ⟨_, List.mem_map_of_mem priced, (refused price).mpr tooMuch⟩

/-- Some amount is too great for the register if an exact one is. -/
theorem overflows_iff (integer : options.register.greatest? = some greatest)
    (finished : ∀ body ∈ m.bodies?.getD [],
      (runs (body.renumber m.importedFunctions).code).2 = []) {entries : List Gas}
    (costs : WasmGas.entryCosts tariff (m.signatures?.getD [] ++ [options.signature])
      (m.importedFunctions + 1) (m.typeIndices?.getD []) = .ok entries) :
    (∃ amount ∈ (m.meterOf tariff options).bodyAmounts entries
        ((m.bodies?.getD []).map (·.renumber m.importedFunctions)),
      options.register.holds amount = false) ↔ m.Overflows tariff options greatest := by
  constructor
  · intro ⟨amount, listed, tooMuch⟩
    obtain ⟨i, body, typeIndex, signature, there, declared, typed, amounts⟩ :=
      (mem_bodyAmounts_iff costs).mp listed
    have refused := (refuses_iff (m.meterOf tariff options) integer).mp
      ⟨amount, entry_eq_cap tariff signature body.locals ▸ amounts, tooMuch⟩
    exact ⟨i, body, typeIndex, signature, _, there, declared, typed,
      segments_runs (finished body (List.mem_of_getElem? there)), refused⟩
  · intro ⟨i, body, typeIndex, signature, segments, there, declared, typed, cut, tooMuch⟩
    obtain ⟨amount, amounts, refused⟩ :=
      (refuses_iff (m.meterOf tariff options) integer).mpr tooMuch
    refine ⟨amount, (mem_bodyAmounts_iff costs).mpr
      ⟨i, body, typeIndex, signature, there, declared, typed, ?_⟩, refused⟩
    rw [runs_of_segments cut]
    exact entry_eq_cap tariff signature body.locals ▸ amounts

/-- **Charges are exact.** A module that passes the checks, and whose bodies end with branches, is
refused for a cost exactly if the price of some run that is not free, with that of the call, is
more than the register holds, no sum being cut off. If it is not refused, it is metered and each
constant is such a price. -/
theorem meter_exact (tariff : Tariff) (integer : options.register.greatest? = some greatest)
    (meterable : m.Meterable options)
    (ends : ∀ body ∈ m.bodies?.getD [], ∀ last ∈ body.code.getLast?, last.isBranch = true) :
    ((∃ cost, m.meter tariff options = .error (.costOverflow cost options.register)) ↔
        m.Overflows tariff options greatest) ∧
      (¬ m.Overflows tariff options greatest → ∃ metered gas,
        m.meter tariff options = .ok (metered, gas) ∧
          m.ChargedExactly metered tariff options) := by
  have finished : ∀ body ∈ m.bodies?.getD [],
      (runs (body.renumber m.importedFunctions).code).2 = [] :=
    fun body listed => FunctionBody.finished_renumber (ends body listed) _
  obtain ⟨entries, costs, outcome⟩ := meter_outcome tariff meterable finished
  have overflows := overflows_iff integer finished costs
  generalize metering : m.meter tariff options = result at outcome
  cases outcome with
  | charged holds _ =>
      have fits : ¬ m.Overflows tariff options greatest := by
        intro tooMuch
        obtain ⟨amount, listed, refused⟩ := overflows.mpr tooMuch
        rw [holds amount listed] at refused
        cases refused
      refine ⟨⟨nofun, fun tooMuch => absurd tooMuch fits⟩, fun _ => ⟨_, _, rfl, ?_⟩⟩
      exact chargedExactly_of_meter integer metering
  | refused listed tooMuch =>
      have refused := overflows.mp ⟨_, listed, tooMuch⟩
      exact ⟨⟨fun _ => refused, fun _ => ⟨_, rfl⟩⟩, fun fits => absurd refused fits⟩

theorem meterable_looping : looping.Meterable {} where
  noConflict := by decide
  functions := by decide
  code := by decide
  paired := by
    rintro _ ⟨⟩
    rfl
  typed := List.forall_mem_singleton.mpr (by decide)

/-- A tariff by which every instruction costs as much as there can be. -/
def dearTariff : Tariff :=
  [("code", .tariff [("code", .tariff [("DEFAULT", .flat (.cap gasLimit))])])]

/-- By one tariff a register can hold what `looping` is charged, by another it cannot. -/
theorem meter_exact_looping :
    Register.greatest? .i64 = some 0x7fffffffffffffff ∧ looping.Meterable {} ∧
      (∀ body ∈ looping.bodies?.getD [], ∀ last ∈ body.code.getLast?, last.isBranch = true) ∧
      looping.meter unitTariff {} = .ok (loopingMetered, .cap 19) ∧
      looping.ChargedExactly loopingMetered unitTariff {} ∧
      looping.meter dearTariff {} = .error (.costOverflow (.cap gasLimit) .i64) ∧
      looping.Overflows dearTariff {} 0x7fffffffffffffff := by
  have integer : Register.greatest? .i64 = some 0x7fffffffffffffff := rfl
  have ends : ∀ body ∈ looping.bodies?.getD [], ∀ last ∈ body.code.getLast?,
      last.isBranch = true := by decide
  have done : looping.meter unitTariff {} = .ok (loopingMetered, .cap 19) := by decide +kernel
  have failed : looping.meter dearTariff {} = .error (.costOverflow (.cap gasLimit) .i64) := by
    decide +kernel
  obtain ⟨cheap, exact⟩ := meter_exact unitTariff integer meterable_looping ends
  have fits : ¬ looping.Overflows unitTariff {} 0x7fffffffffffffff := by
    intro tooMuch
    obtain ⟨cost, failed⟩ := cheap.mpr tooMuch
    rw [done] at failed
    cases failed
  obtain ⟨metered, gas, same, charged⟩ := exact fits
  rw [done] at same
  cases same
  have dear := (meter_exact dearTariff integer meterable_looping ends).1.mp ⟨_, failed⟩
  exact ⟨integer, meterable_looping, ends, done, charged, failed, dear⟩

end Module

end WasmGas

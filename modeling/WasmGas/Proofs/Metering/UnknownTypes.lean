import WasmGas.Proofs.Metering.Amounts
import WasmGas.Proofs.Metering.FunctionSpace

/-! # Functions of unknown type

A module is refused if one of its functions has a type that is not among the signatures, and the
first such function is the one that is told (`FirstUntyped`). But the signatures are those of the
module that the metering function was added to. So an index just behind the original signatures is
taken for known, and its function gets the type of the metering function
(`Module.meter_unknownType`).
-/

namespace WasmGas

/-- A place of the first function whose type index is not below some number of signatures. -/
structure FirstUntyped (count : Nat) (typeIndices : List UInt32) (place : Nat)
    (typeIndex : UInt32) : Prop where
  there : typeIndices[place]? = some typeIndex
  unknown : count ≤ typeIndex.toNat
  known : ∀ earlier ∈ typeIndices.take place, earlier.toNat < count

namespace FirstUntyped

variable {count place : Nat} {head typeIndex : UInt32} {typeIndices : List UInt32}

/-- The first function is the first untyped one if its index is too great. -/
theorem zero_iff :
    FirstUntyped count (head :: typeIndices) 0 typeIndex ↔
      head = typeIndex ∧ count ≤ head.toNat := by
  constructor
  · rintro ⟨there, unknown, _⟩
    cases there
    exact ⟨rfl, unknown⟩
  · rintro ⟨rfl, unknown⟩
    exact ⟨rfl, unknown, nofun⟩

/-- A later function is the first untyped one if those before it have types. -/
theorem succ_iff :
    FirstUntyped count (head :: typeIndices) (place + 1) typeIndex ↔
      head.toNat < count ∧ FirstUntyped count typeIndices place typeIndex := by
  constructor
  · rintro ⟨there, unknown, known⟩
    obtain ⟨one, others⟩ := List.forall_mem_cons.mp known
    exact ⟨one, there, unknown, others⟩
  · rintro ⟨one, there, unknown, others⟩
    exact ⟨there, unknown, List.forall_mem_cons.mpr ⟨one, others⟩⟩

end FirstUntyped

/-- What it costs to enter the functions cannot be told if one has no known type. -/
theorem entryCosts_eq_error_iff {tariff : Tariff} {signatures : List Signature}
    {function : UInt32} {typeIndices : List UInt32} {fault : MeteringError} :
    entryCosts tariff signatures function typeIndices = .error fault ↔
      ∃ place typeIndex, FirstUntyped signatures.length typeIndices place typeIndex ∧
        fault = .unknownType (function + UInt32.ofNat place) typeIndex := by
  induction typeIndices generalizing function with
  | nil =>
      constructor
      · intro failed
        cases failed
      · rintro ⟨place, typeIndex, ⟨there, _, _⟩, _⟩
        cases there
  | cons head others first =>
      have here : function + UInt32.ofNat 0 = function := UInt32.add_zero function
      rw [entryCosts]
      cases typed : signatures[head.toNat]? with
      | none =>
          have unknown := List.getElem?_eq_none_iff.mp typed
          constructor
          · intro failed
            cases failed
            refine ⟨0, head, FirstUntyped.zero_iff.mpr ⟨rfl, unknown⟩, ?_⟩
            rw [here]
          · rintro ⟨place, typeIndex, untyped, rfl⟩
            cases place with
            | zero =>
                obtain ⟨rfl, _⟩ := FirstUntyped.zero_iff.mp untyped
                rw [here]
                rfl
            | succ place =>
                have known := (FirstUntyped.succ_iff.mp untyped).1
                omega
      | some signature =>
          obtain ⟨bound, _⟩ := List.getElem?_eq_some_iff.mp typed
          constructor
          · intro failed
            rcases Except.bind_eq_error.mp failed with later | ⟨rest, _, put⟩
            · obtain ⟨place, typeIndex, untyped, rfl⟩ := first.mp later
              refine ⟨place + 1, typeIndex, FirstUntyped.succ_iff.mpr ⟨bound, untyped⟩, ?_⟩
              rw [add_ofNat_succ]
            · cases put
          · rintro ⟨place, typeIndex, untyped, rfl⟩
            cases place with
            | zero =>
                obtain ⟨_, unknown⟩ := FirstUntyped.zero_iff.mp untyped
                omega
            | succ place =>
                obtain ⟨_, later⟩ := FirstUntyped.succ_iff.mp untyped
                have failed := first.mpr ⟨place, typeIndex, later, by rw [add_ofNat_succ]⟩
                exact Except.bind_eq_error.mpr (Or.inl failed)

/-! ## Charging blames no type -/

/-- Faults of the code that is charged for. -/
def MeteringError.OfCode : MeteringError → Prop
  | missingTerminator _ => True
  | costOverflow _ _ => True
  | _ => False

/-- A step fails for its code alone. -/
def FailsForCode {α : Type} (step : Except MeteringError α) : Prop :=
  ∀ fault, step = .error fault → fault.OfCode

theorem FailsForCode.pure {α : Type} (a : α) : FailsForCode (Pure.pure a) :=
  Except.FailsWith.pure a

theorem FailsForCode.bind {α β : Type} {first : Except MeteringError α}
    {next : α → Except MeteringError β} (one : FailsForCode first)
    (other : ∀ a, FailsForCode (next a)) : FailsForCode (first >>= next) :=
  Except.FailsWith.bind one other

namespace Meter

variable {meter : Meter}

/-- A charge fails only where its amount is too great. -/
theorem charge_failsForCode (cost : Gas) : FailsForCode (meter.charge cost) := by
  intro fault failed
  unfold charge at failed
  by_cases holds : meter.register.holds cost = true
  · obtain ⟨_, _, called⟩ := call_eq_ok holds
    rw [if_pos holds, called] at failed
    cases failed
  · rw [if_neg holds] at failed
    cases failed
    trivial

/-- Runs are refused for their code. -/
theorem meterRuns_failsForCode (carried : Gas) (segments : List (List Instruction)) :
    FailsForCode (meter.meterRuns meter.ownCost carried segments) := by
  induction segments generalizing carried with
  | nil => exact .pure _
  | cons run others rest =>
      have first : FailsForCode (meter.meterRun meter.ownCost carried run) := by
        unfold meterRun
        dsimp only
        split
        · exact .pure _
        · exact (charge_failsForCode _).bind fun _ => .pure _
      exact first.bind fun _ => (rest 0).bind fun _ => .pure _

theorem meterCode_failsForCode (entry : Gas) (function : UInt32) (code : List Instruction) :
    FailsForCode (meter.meterCode meter.ownCost entry function code) := by
  refine (meterRuns_failsForCode entry (runs code).1).bind fun metered => ?_
  by_cases finished : (runs code).2 = []
  · rw [if_pos finished]
    exact .pure metered
  · rw [if_neg finished]
    rintro _ failed
    cases failed
    trivial

theorem meterBodies_failsForCode (function : UInt32) (entries : List Gas)
    (bodies : List FunctionBody) :
    FailsForCode (meter.meterBodies meter.ownCost function entries bodies) := by
  induction bodies generalizing function entries with
  | nil => cases entries <;> exact .pure _
  | cons body others rest =>
      cases entries with
      | nil => exact .pure _
      | cons entry more =>
          exact (meterCode_failsForCode _ function _).bind fun _ =>
            (rest (function + 1) more).bind fun _ => .pure _

theorem meterSections_failsForCode (first : UInt32) (entries : List Gas)
    (sections : List Section) :
    FailsForCode (meter.meterSections meter.ownCost first entries sections) := by
  induction sections with
  | nil => exact .pure _
  | cons head tail rest =>
      cases held : head.bodies? with
      | some bodies =>
          cases head <;> cases held
          exact (meterBodies_failsForCode first entries bodies).bind fun _ =>
            rest.bind fun _ => .pure _
      | none =>
          rw [meterSections_cons_other held]
          exact rest.bind fun _ => .pure _

end Meter

namespace Module

variable {m : Module} {tariff : Tariff} {options : MeteringOptions}

/-- With all other checks passed, a type is blamed exactly if entering the functions cannot be
priced for it. -/
theorem meter_eq_unknownType_iff (free : m.conflict? options = none)
    (functions : m.count .functions ≤ 1) (code : m.count .code ≤ 1)
    (paired : ∀ bodies, m.bodies? = some bodies →
      bodies.length = (m.typeIndices?.getD []).length) {function typeIndex : UInt32} :
    m.meter tariff options = .error (.unknownType function typeIndex) ↔
      WasmGas.entryCosts tariff (m.signatures?.getD [] ++ [options.signature])
        (m.importedFunctions + 1) (m.typeIndices?.getD []) =
          .error (.unknownType function typeIndex) := by
  have known : (m.withMeteringImport options).entryCosts tariff (m.importedFunctions + 1) = _ :=
    entryCosts_withMeteringImport functions code paired
  rw [← known, meter_of_noConflict free, Meter.meterModule, Meter.callCost_eq_ok]
  constructor
  · intro failed
    rcases Except.bind_eq_error.mp failed with failed | ⟨_, same, failed⟩
    · cases failed
    cases same
    rcases Except.bind_eq_error.mp failed with failed | ⟨entries, _, failed⟩
    · exact failed
    rcases Except.bind_eq_error.mp failed with failed | ⟨_, _, failed⟩
    · cases Meter.meterSections_failsForCode _ _ _ _ failed
    · cases failed
  · intro failed
    refine Except.bind_eq_error.mpr (Or.inr ⟨_, rfl, ?_⟩)
    exact Except.bind_eq_error.mpr (Or.inl failed)

/-- **Functions of unknown type.** If all else is in order, then the first function whose type index
goes beyond the original signatures and the one that was added is told to have no known type. So an
index beyond the original signatures is refused unless it is the next one, and a function with that
index gets the type of the metering function. -/
theorem meter_unknownType (tariff : Tariff) (free : m.conflict? options = none)
    (functions : m.count .functions ≤ 1) (code : m.count .code ≤ 1)
    (paired : ∀ bodies, m.bodies? = some bodies →
      bodies.length = (m.typeIndices?.getD []).length) :
    (∀ function typeIndex, m.meter tariff options = .error (.unknownType function typeIndex) ↔
      ∃ place, FirstUntyped ((m.signatures?.getD []).length + 1) (m.typeIndices?.getD []) place
          typeIndex ∧ function = m.importedFunctions + 1 + UInt32.ofNat place) ∧
    (∀ place typeIndex,
      FirstUntyped (m.signatures?.getD []).length (m.typeIndices?.getD []) place typeIndex →
        (m.meter tariff options =
            .error (.unknownType (m.importedFunctions + 1 + UInt32.ofNat place) typeIndex) ↔
          typeIndex.toNat ≠ (m.signatures?.getD []).length)) ∧
    (∀ metered gas, m.meter tariff options = .ok (metered, gas) →
      ∀ (place : Nat) (typeIndex : UInt32), (m.typeIndices?.getD [])[place]? = some typeIndex →
        typeIndex.toNat = (m.signatures?.getD []).length →
          (metered.entries Section.typeIndices?)[place]? = some typeIndex ∧
            (metered.entries Section.signatures?)[typeIndex.toNat]? = some options.signature) := by
  have refused {function typeIndex : UInt32} :
      m.meter tariff options = .error (.unknownType function typeIndex) ↔
        ∃ place, FirstUntyped ((m.signatures?.getD []).length + 1) (m.typeIndices?.getD []) place
          typeIndex ∧ function = m.importedFunctions + 1 + UInt32.ofNat place := by
    rw [meter_eq_unknownType_iff free functions code paired, entryCosts_eq_error_iff,
      List.length_append, List.length_singleton]
    constructor
    · rintro ⟨place, other, untyped, same⟩
      cases same
      exact ⟨place, untyped, rfl⟩
    · rintro ⟨place, untyped, rfl⟩
      exact ⟨place, typeIndex, untyped, rfl⟩
  -- The signature that was added has the index that was the first one to be unknown.
  refine ⟨fun _ _ => refused, ?_, ?_⟩
  · rintro place typeIndex ⟨there, unknown, known⟩
    rw [refused]
    constructor
    · rintro ⟨_, beyond, _⟩
      have further := beyond.unknown
      omega
    · intro other
      refine ⟨place, ⟨there, by omega, fun earlier listed => ?_⟩, rfl⟩
      exact Nat.lt_succ_of_lt (known earlier listed)
  · intro metered gas done place typeIndex there next
    obtain ⟨rest, _, signatures⟩ := signatures_of_meter done
    rw [typeIndices_of_meter done, entries_typeIndices functions]
    refine ⟨there, ?_⟩
    rw [signatures, next, List.getElem?_append_right le_rfl, Nat.sub_self,
      List.getElem?_cons_zero]

/-- A module with one signature whose second function has the type index 2. -/
def untyped : Module where
  sections := [.types [⟨.func, [], []⟩], .functions [0, 2],
    .code [⟨[], [⟨"end", none, none⟩]⟩, ⟨[], [⟨"end", none, none⟩]⟩]]

/-- A module whose second function has a type that is not there. -/
theorem meter_unknownType_untyped :
    untyped.conflict? {} = none ∧ untyped.count .functions ≤ 1 ∧ untyped.count .code ≤ 1 ∧
      (∀ bodies, untyped.bodies? = some bodies →
        bodies.length = (untyped.typeIndices?.getD []).length) ∧
      untyped.meter unitTariff {} = .error (.unknownType 2 2) := by
  have free : untyped.conflict? {} = none := by decide
  have functions : untyped.count .functions ≤ 1 := by decide
  have code : untyped.count .code ≤ 1 := by decide
  have paired : ∀ bodies, untyped.bodies? = some bodies →
      bodies.length = (untyped.typeIndices?.getD []).length := by
    intro bodies held
    cases held
    rfl
  have second : FirstUntyped (untyped.signatures?.getD []).length (untyped.typeIndices?.getD []) 1
      2 := FirstUntyped.succ_iff.mpr ⟨by decide, FirstUntyped.zero_iff.mpr ⟨rfl, by decide⟩⟩
  obtain ⟨_, refused, _⟩ := meter_unknownType unitTariff free functions code paired
  exact ⟨free, functions, code, paired, (refused 1 2 second).mpr (by decide)⟩

/-- A module with one signature whose only function has the type index 1. -/
def undeclared : Module where
  sections := [.types [⟨.func, [], []⟩], .functions [1], .code [⟨[], [⟨"end", none, none⟩]⟩]]

/-- What becomes of `undeclared` if nothing has a price. -/
def undeclaredMetered : Module where
  sections := [.types [⟨.func, [], []⟩, ⟨.func, [.i64], []⟩],
    .imports [⟨"metering", "usegas", .function 1⟩], .functions [1],
    .code [⟨[], [⟨"end", none, none⟩]⟩]]

/-- The function of `undeclared` gets the type of the metering function. -/
theorem meter_undeclared :
    undeclared.conflict? {} = none ∧ undeclared.count .functions ≤ 1 ∧
      undeclared.count .code ≤ 1 ∧
      (undeclared.bodies?.getD []).length = (undeclared.typeIndices?.getD []).length ∧
      FirstUntyped (undeclared.signatures?.getD []).length (undeclared.typeIndices?.getD []) 0 1 ∧
      undeclared.meter [] {} = .ok (undeclaredMetered, 0) ∧
      undeclared.meter [] {} ≠ .error (.unknownType 1 1) := by
  have accepted : undeclared.meter [] {} = .ok (undeclaredMetered, 0) := by decide +kernel
  have first : FirstUntyped 1 [1] 0 1 := FirstUntyped.zero_iff.mpr ⟨rfl, by decide⟩
  refine ⟨by decide, by decide, by decide, rfl, first, accepted, ?_⟩
  rw [accepted]
  exact nofun

end Module

end WasmGas

import WasmGas.Proofs.Metering.Reported

/-! # What charging goes by

What runs are charged goes by the names of their instructions (`Meter.amounts_eq`), and what is
due on entering a function by its signature and the types of its locals (`entryCosts_eq_map`,
`Tariff.localsCost_of_types`). So one metering can be compared with another run by run, as far as
these can be compared (`Meter.Charges.compare`).
-/

namespace WasmGas

/-! ## Prices by name -/

namespace Tariff

variable (tariff : Tariff)

/-- What instructions of some names cost together. -/
def namesCost (names : List String) : Gas :=
  (names.map (tariff.instructions.priceName · 0)).sum

/-- What runs of instructions of some names cost without calls. What is carried is paid with the
first. -/
def prices : (carried : Gas) → List (List String) → List Gas
  | _, [] => []
  | carried, names :: others => (carried + tariff.namesCost names) :: prices 0 others

/-- What a run costs depends on the names in it alone. -/
theorem sum_instructionCost (code : List Instruction) :
    (code.map tariff.instructionCost).sum = tariff.namesCost (code.map (·.name)) := by
  rw [namesCost, List.map_map]
  rfl

/-- What locals cost depends on their types alone. -/
theorem localsCost_of_types {groups others : List LocalGroup}
    (same : groups.map (·.type) = others.map (·.type)) :
    tariff.localsCost groups = tariff.localsCost others := by
  have byType (groups : List LocalGroup) : tariff.localsCost groups =
      ((groups.map (·.type)).map fun type => tariff.locals.priceRecord
        [("count", .scalar), ("type", .name type.name)] 0).sum := by
    rw [List.map_map]
    rfl
  rw [byType, byType, same]

end Tariff

def ChargedRun.names (charged : ChargedRun) : List String := charged.run.map (·.name)

/-- The names of a layout are those of its runs. -/
theorem names_layout (layout : List ChargedRun) :
    layout.map ChargedRun.names = (layout.map (·.run)).map (List.map (·.name)) := by
  rw [List.map_map]
  rfl

namespace Meter

variable {meter other : Meter}

/-- What runs are charged goes by their names. -/
theorem amounts_eq (carried : Gas) (segments : List (List Instruction)) :
    meter.amounts carried segments =
      (meter.tariff.prices carried (segments.map (List.map (·.name)))).map meter.amount := by
  induction segments generalizing carried with
  | nil => rfl
  | cons run others same =>
      rw [amounts, meter.tariff.sum_instructionCost, same]
      rfl

/-- Runs whose prices are related are paid with related prices. -/
theorem Charges.compare {related : Gas → Gas → Prop} {carried carried' : Gas}
    {layout layout' : List ChargedRun} (charges : meter.Charges carried layout)
    (charges' : other.Charges carried' layout')
    (prices : List.Forall₂ related (meter.tariff.prices carried (layout.map ChargedRun.names))
      (other.tariff.prices carried' (layout'.map ChargedRun.names))) :
    List.Forall₂ (fun one another => ∃ price price', related price price' ∧
      meter.Pays price one.charge ∧ other.Pays price' another.charge) layout layout' := by
  induction layout generalizing carried carried' layout' with
  | nil =>
      cases layout' with
      | nil => exact .nil
      | cons _ _ => cases prices
  | cons first behind compared =>
      cases layout' with
      | nil => cases prices
      | cons first' behind' =>
          obtain ⟨pays, rest⟩ := charges
          obtain ⟨pays', rest'⟩ := charges'
          rw [meter.tariff.sum_instructionCost] at pays
          rw [other.tariff.sum_instructionCost] at pays'
          cases prices with
          | cons price others =>
              exact .cons ⟨_, _, price, pays, pays'⟩ (compared rest rest' others)

end Meter

namespace Module

/-! ## Signatures of functions -/

variable {m metered : Module} {options : MeteringOptions} {gas : Gas}

/-- The signatures that the functions of a module have by some types. -/
def definedSignatures (m : Module) (types : List Signature) : List (Option Signature) :=
  (m.typeIndices?.getD []).map fun typeIndex => types[typeIndex.toNat]?

/-- More types make no difference to functions that have a signature. -/
theorem definedSignatures_append {types : List Signature}
    (typed : ∀ defined ∈ m.definedSignatures types, defined.isSome = true)
    (more : List Signature) :
    m.definedSignatures (types ++ more) = m.definedSignatures types := by
  refine List.map_congr_left fun typeIndex listed => ?_
  obtain ⟨signature, there⟩ :=
    Option.isSome_iff_exists.mp (typed _ (List.mem_map_of_mem listed))
  obtain ⟨bound, _⟩ := List.getElem?_eq_some_iff.mp there
  exact List.getElem?_append_left bound

/-- What a module that can be metered has signatures for, and how it comes out to charge for these
and for its bodies. The tariff has no say in the signatures. -/
theorem definedSignatures_of_meter {tariff : Tariff}
    (done : m.meter tariff options = .ok (metered, gas)) :
    ∃ defined : List Signature,
      m.definedSignatures (m.signatures?.getD [] ++ [options.signature]) = defined.map some ∧
      ∀ other : Tariff, options.register.Outcome Prod.snd
        ((m.meterOf other options).bodyAmounts (defined.map other.signatureCost)
          ((m.bodies?.getD []).map (·.renumber m.importedFunctions)))
        (m.meter other options) := by
  have outcome (tariff : Tariff) :=
    meter_outcome tariff (meterable_of_meter done) (finished_of_meter done)
  obtain ⟨_, costs, _⟩ := outcome tariff
  obtain ⟨defined, typed, _⟩ := entryCosts_eq_map costs
  refine ⟨defined, typed, fun other => ?_⟩
  obtain ⟨_, costs, charging⟩ := outcome other
  obtain ⟨same, typed', rfl⟩ := entryCosts_eq_map costs
  rw [typed] at typed'
  rwa [(List.map_inj_right fun _ _ => Option.some.inj).mp typed']

/-- Each body is metered as that of a function with the signature at its place. -/
theorem metersBody_of_entries {tariff : Tariff} (done : m.meter tariff options = .ok (metered, gas))
    {i : Nat} {body : FunctionBody} (there : (m.entries Section.bodies?)[i]? = some body) :
    ∃ (signature : Signature) (other : FunctionBody) (layout : List ChargedRun),
      (m.definedSignatures (m.signatures?.getD [] ++ [options.signature]))[i]? =
        some (some signature) ∧
      (metered.entries Section.bodies?)[i]? = some other ∧
      (m.meterOf tariff options).MetersBody signature body other layout := by
  rw [entries_bodies (meterable_of_meter done).code] at there
  obtain ⟨typeIndex, signature, other, layout, declared, typed, found, meters⟩ :=
    metersBody_of_meter done there
  rw [bodies_of_meter done, definedSignatures, List.getElem?_map, declared, Option.map_some, typed]
  exact ⟨signature, other, layout, rfl, found, meters⟩

end Module

end WasmGas

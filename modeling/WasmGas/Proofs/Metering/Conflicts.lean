import WasmGas.Proofs.Metering.Faults

/-! # Imports under the names of the metering function

A module that imports something under the names of the metering function is to be refused
(`MeteringOptions.names`). It is refused exactly if such an import stands in the first section with
imports. One that stands in another section is not seen, and the metering function is added beside
it under the same names (`Module.meter_conflict`).
-/

namespace WasmGas

/-- Whether an import, of whatever kind, stands under the names of the metering function. -/
def MeteringOptions.names (options : MeteringOptions) (entry : ImportEntry) : Bool :=
  entry.module == options.module && entry.field == options.field

/-- Imports are in sections of imports. -/
theorem Section.kind_of_imports? {content : Section} {imports : List ImportEntry}
    (held : content.imports? = some imports) : content.kind = .imports := by
  cases content <;> first | rfl | cases held

/-- Charging changes nothing for a look-up that code sections do not answer. -/
theorem Meter.MetersSection.findSome?_eq {α : Type} {meter : Meter} {callCost : Gas}
    {first : UInt32} {entries : List Gas} {sections metered : List Section}
    {view : Section → Option α}
    (each : List.Forall₂ (meter.MetersSection callCost first entries) sections metered)
    (silent : ∀ bodies, view (.code bodies) = none) :
    metered.findSome? view = sections.findSome? view := by
  induction each with
  | nil => rfl
  | cons one _ same =>
      rw [List.findSome?_cons, List.findSome?_cons, same]
      cases one with
      | code _ => rw [silent, silent]
      | other _ => rfl

namespace Module

variable {m metered : Module} {tariff : Tariff} {options : MeteringOptions} {gas : Gas}

/-- There is a conflict if the first section of imports has both names in one entry. -/
theorem conflict?_ne_none_iff : m.conflict? options ≠ none ↔
    ∃ entry ∈ m.imports?.getD [], options.names entry = true := by
  change (m.imports?.getD []).find? options.names ≠ none ↔ _
  rw [← Option.isSome_iff_ne_none, List.find?_isSome]

/-- Metering is refused for an import that is there just where there is a conflict. -/
theorem meter_eq_conflictingImport_iff {module field : String} :
    m.meter tariff options = .error (.conflictingImport module field) ↔
      (∃ entry ∈ m.imports?.getD [], options.names entry = true) ∧
        module = options.module ∧ field = options.field := by
  rw [← conflict?_ne_none_iff]
  constructor
  · intro failed
    rcases meter_eq_error failed with ⟨found, told⟩ | ⟨_, other | other⟩
    · cases told
      exact ⟨found, rfl, rfl⟩
    · exact other.elim
    · exact other.elim
  · intro ⟨found, sameModule, sameField⟩
    obtain ⟨entry, stands⟩ := Option.ne_none_iff_exists'.mp found
    obtain ⟨_, ofModule, ofField⟩ := conflict?_eq_some stands
    rw [meter, stands, sameModule, sameField, ← ofModule, ← ofField]
    rfl

/-- Metering adds one import under these names, whether there are others or not. -/
theorem countP_names_of_meter (done : m.meter tariff options = .ok (metered, gas)) :
    (metered.entries Section.imports?).countP options.names =
      (m.entries Section.imports?).countP options.names + 1 := by
  obtain ⟨rest, old, new⟩ := imports_of_meter done
  have named : options.names ⟨options.module, options.field, .function m.nextTypeIndex⟩ = true := by
    simp only [MeteringOptions.names, beq_self_eq_true, Bool.and_self]
  rw [old, new, List.countP_append, List.countP_append, List.countP_cons_of_pos named,
    Nat.add_assoc]

/-- The metering function comes last in the first section with imports and is found there. -/
theorem imports?_of_meter (done : m.meter tariff options = .ok (metered, gas)) :
    metered.imports? = some (m.imports?.getD [] ++
      [⟨options.module, options.field, .function m.nextTypeIndex⟩]) := by
  obtain ⟨typed, imported, _, _, _, one, other, sections⟩ := sections_of_meter done
  have untouched : (Section.imports? ∘ fun content : Section =>
      content.renumber m.importedFunctions options.functionName) = Section.imports? :=
    funext fun content => content.imports?_renumber _ _
  have first : typed.findSome? Section.imports? = m.imports? := one.findSome?_other fun _ => rfl
  rw [imports?, Meter.MetersSection.findSome?_eq sections fun _ => rfl, List.findSome?_map,
    untouched, other.findSome?_eq fun _ => rfl, first]

/-- A metered module is not metered again under the same names. -/
theorem meter_of_meter (done : m.meter tariff options = .ok (metered, gas)) (other : Tariff)
    {again : MeteringOptions} (sameModule : again.module = options.module)
    (sameField : again.field = options.field) :
    metered.meter other again = .error (.conflictingImport options.module options.field) := by
  refine meter_eq_conflictingImport_iff.mpr ⟨?_, sameModule.symm, sameField.symm⟩
  rw [imports?_of_meter done, Option.getD_some]
  refine ⟨_, List.mem_append_right _ List.mem_cons_self, ?_⟩
  rw [MeteringOptions.names, sameModule, sameField, beq_self_eq_true, beq_self_eq_true,
    Bool.and_self]

/-- **Imports under the names of the metering function.** A module is refused for one exactly if it
stands in the first section with imports. Otherwise metering adds one to those that there are. So
if there is only one such section, then each of them is found, and the metering function is the
only one in what becomes of the module. -/
theorem meter_conflict (m : Module) (tariff : Tariff) (options : MeteringOptions) :
    (∀ module field, m.meter tariff options = .error (.conflictingImport module field) ↔
      (∃ entry ∈ m.imports?.getD [], options.names entry = true) ∧
        module = options.module ∧ field = options.field) ∧
    (∀ metered gas, m.meter tariff options = .ok (metered, gas) →
      (metered.entries Section.imports?).countP options.names =
        (m.entries Section.imports?).countP options.names + 1) ∧
    (m.count .imports ≤ 1 →
      (m.meter tariff options =
          .error (.conflictingImport options.module options.field) ↔
        ∃ entry ∈ m.entries Section.imports?, options.names entry = true) ∧
      ∀ metered gas, m.meter tariff options = .ok (metered, gas) →
        (metered.entries Section.imports?).countP options.names = 1) := by
  refine ⟨fun _ _ => meter_eq_conflictingImport_iff, fun _ _ => countP_names_of_meter, ?_⟩
  intro single
  have first : m.entries Section.imports? = m.imports?.getD [] :=
    entries_of_single Section.kind_of_imports? single
  rw [first]
  refine ⟨meter_eq_conflictingImport_iff.trans (and_iff_left ⟨rfl, rfl⟩), ?_⟩
  intro metered gas done
  have absent : (m.imports?.getD []).countP options.names = 0 := by
    rw [List.countP_eq_zero]
    intro entry listed named
    exact conflict?_ne_none_iff.mpr ⟨entry, listed, named⟩ (meter_eq_ok done).1
  rw [countP_names_of_meter done, first, absent]

/-- What is metered once is refused the next time. -/
theorem meter_conflict_looping :
    looping.count .imports ≤ 1 ∧ looping.meter unitTariff {} = .ok (loopingMetered, .cap 19) ∧
      (loopingMetered.entries Section.imports?).countP (MeteringOptions.names {}) = 1 ∧
      loopingMetered.meter unitTariff {} = .error (.conflictingImport "metering" "usegas") := by
  have single : looping.count .imports ≤ 1 := by decide
  have done : looping.meter unitTariff {} = .ok (loopingMetered, .cap 19) := by decide +kernel
  have once := ((meter_conflict looping unitTariff {}).2.2 single).2 loopingMetered (.cap 19) done
  have again := (meter_conflict loopingMetered unitTariff {}).1 "metering" "usegas"
  exact ⟨single, done, once, again.mpr ⟨by decide, rfl, rfl⟩⟩

/-- A module that imports the metering function from its second section with imports. -/
def hidden : Module where
  sections := [.types [⟨.func, [.i64], []⟩], .imports [⟨"env", "f", .function 0⟩],
    .imports [⟨"metering", "usegas", .function 0⟩]]

/-- What becomes of `hidden` if nothing has a price. -/
def hiddenMetered : Module where
  sections := [.types [⟨.func, [.i64], []⟩, ⟨.func, [.i64], []⟩],
    .imports [⟨"env", "f", .function 0⟩, ⟨"metering", "usegas", .function 1⟩],
    .imports [⟨"metering", "usegas", .function 0⟩]]

/-- The import that `hidden` has already is not found, so that there are two of them. -/
theorem meter_hidden :
    ⟨"metering", "usegas", .function 0⟩ ∈ hidden.entries Section.imports? ∧
      hidden.meter [] {} = .ok (hiddenMetered, 0) ∧
      hidden.meter [] {} ≠ .error (.conflictingImport "metering" "usegas") ∧
      (hiddenMetered.entries Section.imports?).countP (MeteringOptions.names {}) = 2 := by
  have accepted : hidden.meter [] {} = .ok (hiddenMetered, 0) := by decide +kernel
  refine ⟨by decide, accepted, ?_, by decide⟩
  rw [accepted]
  exact nofun

end Module

end WasmGas

import WasmGas.Proofs.Metering.FunctionSpace

/-! # The type space

The signatures of a module are those of all its sections with signatures, one section after the
other (`Module.typeSpace`). Metering leaves every type index as it is, wherever it stands
(`Module.KeepsTypeUses`), but it adds a signature at the end of the first of these sections, and so
in front of those of all others (`Module.ShiftsTypes`). An index keeps its signature in the first
section, and therefore every index does if there is only one. In the other sections each index gets
the signature in front of its own (`Module.meter_types`).
-/

namespace WasmGas

/-- The signatures of a module, by type index. -/
def Module.typeSpace (m : Module) : List Signature := m.entries Section.signatures?

/-- The type index that an indirect call names. -/
def Instruction.indirectType? (instruction : Instruction) : Option UInt32 :=
  match instruction.immediate with
  | some (.callIndirect typeIndex _) => some typeIndex
  | _ => none

/-- The type indices of the indirect calls in a body, in the order of the calls. -/
def FunctionBody.indirectTypes (body : FunctionBody) : List UInt32 :=
  body.code.filterMap Instruction.indirectType?

/-- Signatures are in sections of types. -/
theorem Section.kind_of_signatures? {content : Section} {signatures : List Signature}
    (held : content.signatures? = some signatures) : content.kind = .types := by
  cases content <;> first | rfl | cases held

/-! ## Indirect calls -/

/-- Renumbering functions leaves the types of indirect calls. -/
theorem Instruction.indirectType?_renumber (insertion : UInt32) (instruction : Instruction) :
    (instruction.renumber insertion).indirectType? = instruction.indirectType? := by
  cases called : instruction.callTarget? with
  | none => rw [renumber, called]
  | some target =>
      obtain ⟨_, held⟩ := callTarget?_eq_some_iff.mp called
      rw [renumber, called, indirectType?, indirectType?, held]

/-- What passes an amount uses no type. -/
theorem Register.Passes.indirectType?_eq_none {register : Register} {cost : Gas}
    {constant : Instruction} (passes : register.Passes cost constant) :
    constant.indirectType? = none := by
  cases register <;> obtain ⟨_, _, rfl⟩ := passes <;> rfl

namespace Meter

variable {meter : Meter}

/-- No charge is an indirect call. -/
theorem filterMap_indirectType?_of_charges {carried : Gas} {layout : List ChargedRun}
    (charges : meter.Charges carried layout) :
    (layout.flatMap ChargedRun.code).filterMap Instruction.indirectType? =
      (layout.map (·.run)).flatten.filterMap Instruction.indirectType? := by
  induction layout generalizing carried with
  | nil => rfl
  | cons first others same =>
      obtain ⟨pays, rest⟩ := charges
      have silent : first.charge.filterMap Instruction.indirectType? = [] := by
        rcases pays.empty_or_call with ⟨_, empty⟩ | ⟨constant, passes, front⟩
        · rw [empty, List.filterMap_nil]
        · rw [front, List.filterMap_cons_none passes.indirectType?_eq_none]
          rfl
      rw [List.flatMap_cons, ChargedRun.code, List.filterMap_append, List.filterMap_append, silent,
        same rest, List.map_cons, List.flatten_cons, List.filterMap_append, List.nil_append]

/-- Charges use no types. -/
theorem MetersBody.indirectTypes_eq {signature : Signature} {body metered : FunctionBody}
    {layout : List ChargedRun} (meters : meter.MetersBody signature body metered layout) :
    metered.indirectTypes = body.indirectTypes := by
  have whole : (layout.map (·.run)).flatten = (body.renumber meter.function).code :=
    meters.segments.flatten
  have kept : Instruction.indirectType? ∘ Instruction.renumber meter.function =
      Instruction.indirectType? :=
    funext fun instruction => instruction.indirectType?_renumber meter.function
  rw [FunctionBody.indirectTypes, meters.code, filterMap_indirectType?_of_charges meters.charges,
    whole, FunctionBody.renumber, List.filterMap_map, kept, FunctionBody.indirectTypes]

end Meter

namespace Module

/-- The type indices of functions, of imported functions and of indirect calls are what they were.
Only the metering function comes with one more. -/
structure KeepsTypeUses (options : MeteringOptions) (m metered : Module) : Prop where
  functions : metered.entries Section.typeIndices? = m.entries Section.typeIndices?
  imports : ∃ before after, m.entries Section.imports? = before ++ after ∧
    metered.entries Section.imports? =
      before ++ ⟨options.module, options.field, .function m.nextTypeIndex⟩ :: after
  calls : (metered.entries Section.bodies?).map FunctionBody.indirectTypes =
    (m.entries Section.bodies?).map FunctionBody.indirectTypes

/-- Among the signatures one stands at a place that was that of another, or at the end, and those
from there on have moved. -/
structure ShiftsTypes (added : Signature) (place : Nat) (m metered : Module) : Prop where
  below : ∀ index < place, metered.typeSpace[index]? = m.typeSpace[index]?
  added : metered.typeSpace[place]? = some added
  behind : ∀ index, place ≤ index → metered.typeSpace[index + 1]? = m.typeSpace[index]?

variable {m metered : Module} {tariff : Tariff} {options : MeteringOptions} {gas : Gas}

/-- Indirect calls keep the indices of their types. -/
theorem indirectTypes_of_meter (done : m.meter tariff options = .ok (metered, gas)) :
    (metered.entries Section.bodies?).map FunctionBody.indirectTypes =
      (m.entries Section.bodies?).map FunctionBody.indirectTypes := by
  rw [bodies_of_meter done, entries_bodies (meterable_of_meter done).code]
  apply List.ext_getElem?
  intro i
  rw [List.getElem?_map, List.getElem?_map]
  cases there : (m.bodies?.getD [])[i]? with
  | none =>
      have beyond := List.getElem?_eq_none_iff.mp there
      rw [← length_bodies_of_meter done] at beyond
      rw [List.getElem?_eq_none_iff.mpr beyond]
  | some body =>
      obtain ⟨_, _, other, _, _, _, found, meters⟩ := metersBody_of_meter done there
      rw [found, Option.map_some, Option.map_some, meters.indirectTypes_eq]

/-- Metering leaves every index of a type as it was. -/
theorem keepsTypeUses_of_meter (done : m.meter tariff options = .ok (metered, gas)) :
    m.KeepsTypeUses options metered := by
  obtain ⟨rest, imports, others⟩ := imports_of_meter done
  exact ⟨typeIndices_of_meter done, ⟨_, rest, imports, others⟩, indirectTypes_of_meter done⟩

/-- The signature of the metering function goes behind those of the first section of types. -/
theorem shiftsTypes_of_meter (done : m.meter tariff options = .ok (metered, gas)) :
    ShiftsTypes options.signature (m.signatures?.getD []).length m metered := by
  obtain ⟨rest, old, new⟩ := signatures_of_meter done
  refine ⟨?_, ?_, ?_⟩
  · intro index below
    rw [typeSpace, typeSpace, old, new, List.getElem?_append_left below,
      List.getElem?_append_left below]
  · rw [typeSpace, new, List.getElem?_append_right le_rfl, Nat.sub_self, List.getElem?_cons_zero]
  · intro index behind
    rw [typeSpace, typeSpace, old, new, List.getElem?_append_right behind,
      List.getElem?_append_right (Nat.le_succ_of_le behind), Nat.succ_sub behind,
      List.getElem?_cons_succ]

/-- **What type references mean.** Every type index stands where it stood, and the signatures behind
the first section with signatures have moved on by one. So the indices into that section keep their
signatures, which are all indices if there is no other. -/
theorem meter_types (done : m.meter tariff options = .ok (metered, gas)) :
    m.KeepsTypeUses options metered ∧
      ShiftsTypes options.signature (m.signatures?.getD []).length m metered ∧
      (m.count .types ≤ 1 → ∀ (index : Nat) (signature : Signature),
        m.typeSpace[index]? = some signature → metered.typeSpace[index]? = some signature) := by
  have shifts := shiftsTypes_of_meter done
  refine ⟨keepsTypeUses_of_meter done, shifts, ?_⟩
  intro single index signature there
  have first : m.typeSpace = m.signatures?.getD [] :=
    entries_of_single Section.kind_of_signatures? single
  have below : index < (m.signatures?.getD []).length := by
    obtain ⟨bound, _⟩ := List.getElem?_eq_some_iff.mp there
    rwa [first] at bound
  rw [shifts.below index below, there]

/-- A module with one section of types, whose types stay where they were. -/
theorem meter_types_looping :
    looping.meter unitTariff {} = .ok (loopingMetered, .cap 19) ∧
      looping.KeepsTypeUses {} loopingMetered ∧
      ShiftsTypes ⟨.func, [.i64], []⟩ 1 looping loopingMetered ∧
      loopingMetered.typeSpace[0]? = some ⟨.func, [.i32], []⟩ := by
  have done : looping.meter unitTariff {} = .ok (loopingMetered, .cap 19) := by decide +kernel
  have single : looping.count .types ≤ 1 := by decide
  obtain ⟨uses, shifts, kept⟩ := meter_types done
  exact ⟨done, uses, shifts, kept single 0 _ rfl⟩

/-- A module with two sections of signatures. An imported function, its own function and an indirect
call have the signature of the second one. -/
def retyped : Module where
  sections := [.types [⟨.func, [], []⟩], .types [⟨.func, [.i32], []⟩],
    .imports [⟨"env", "f", .function 1⟩], .functions [1],
    .code [⟨[], [⟨"call_indirect", none, some (.callIndirect 1 0)⟩, ⟨"end", none, none⟩]⟩]]

/-- What becomes of `retyped` if nothing has a price. -/
def retypedMetered : Module where
  sections := [.types [⟨.func, [], []⟩, ⟨.func, [.i64], []⟩], .types [⟨.func, [.i32], []⟩],
    .imports [⟨"env", "f", .function 1⟩, ⟨"metering", "usegas", .function 1⟩], .functions [1],
    .code [⟨[], [⟨"call_indirect", none, some (.callIndirect 1 0)⟩, ⟨"end", none, none⟩]⟩]]

/-- In `retyped` the index 1 is used in three ways, and each use gets the signature of the metering
function. -/
theorem meter_retyped :
    retyped.meter [] {} = .ok (retypedMetered, 0) ∧
      1 ∈ retyped.entries Section.typeIndices? ∧
      ⟨"env", "f", .function 1⟩ ∈ retyped.entries Section.imports? ∧
      1 ∈ (retyped.entries Section.bodies?).flatMap FunctionBody.indirectTypes ∧
      retyped.typeSpace[1]? = some ⟨.func, [.i32], []⟩ ∧
      retypedMetered.typeSpace[1]? = some ⟨.func, [.i64], []⟩ ∧
      retypedMetered.typeSpace[1]? ≠ some ⟨.func, [.i32], []⟩ := by
  refine ⟨?_, ?_, ?_, ?_, rfl, rfl, ?_⟩ <;> decide +kernel

end Module

end WasmGas

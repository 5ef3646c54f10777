import WasmGas.Proofs.Metering.UnknownTypes

/-! # Why metering fails

A module is refused for an import under the names of the metering function, for functions that do
not fit together, or for its code (`Module.meter_eq_error`). The call of the metering function is
put together as text, but that text always assembles, so that no module is refused for it.
-/

namespace WasmGas

/-- Faults of how functions, their types and their bodies fit together. -/
def MeteringError.OfFunctions : MeteringError → Prop
  | bodyCountMismatch _ _ => True
  | duplicateSection _ => True
  | unknownType _ _ => True
  | _ => False

/-- The costs of entry fail for what is wrong with functions. -/
theorem entryCosts_failsWith (tariff : Tariff) (signatures : List Signature) (function : UInt32)
    (typeIndices : List UInt32) :
    Except.FailsWith MeteringError.OfFunctions
      (entryCosts tariff signatures function typeIndices) := by
  intro fault failed
  obtain ⟨place, typeIndex, _, told⟩ := entryCosts_eq_error_iff.mp failed
  rw [told]
  trivial

/-- What is checked before any body blames functions. -/
theorem Module.entryCosts_failsWith (imported : Module) (tariff : Tariff) (first : UInt32) :
    Except.FailsWith MeteringError.OfFunctions (imported.entryCosts tariff first) := by
  have single (kind : SectionKind) :
      Except.FailsWith MeteringError.OfFunctions (imported.checkSingle kind) :=
    Except.FailsWith.check fun _ => trivial
  have paired : Except.FailsWith MeteringError.OfFunctions imported.checkBodies :=
    Except.FailsWith.check fun _ => trivial
  have types := WasmGas.entryCosts_failsWith tariff (imported.signatures?.getD []) first
    (imported.typeIndices?.getD [])
  exact (single .functions).bind fun _ => (single .code).bind fun _ => paired.bind fun _ => types

/-- A module is refused for its functions or for its code. -/
theorem Meter.meterModule_failsWith (meter : Meter) (imported : Module) :
    Except.FailsWith (fun fault => fault.OfFunctions ∨ fault.OfCode)
      (meter.meterModule imported) := by
  have entries : Except.FailsWith (fun fault => fault.OfFunctions ∨ fault.OfCode)
      (imported.entryCosts meter.tariff (meter.function + 1)) :=
    (imported.entryCosts_failsWith meter.tariff (meter.function + 1)).mono fun _ => Or.inl
  have sections (costs : List Gas) : Except.FailsWith
      (fun fault => fault.OfFunctions ∨ fault.OfCode)
      (meter.meterSections meter.ownCost (meter.function + 1) costs imported.sections) :=
    Except.FailsWith.mono (meterSections_failsForCode _ costs imported.sections) fun _ => Or.inr
  rw [meterModule, callCost_eq_ok]
  exact entries.bind fun costs => (sections costs).bind fun _ => .pure _

namespace Module

variable {m : Module} {tariff : Tariff} {options : MeteringOptions}

/-- A conflicting import has the names that were asked for. -/
theorem conflict?_eq_some {entry : ImportEntry} (found : m.conflict? options = some entry) :
    entry ∈ m.imports?.getD [] ∧ entry.module = options.module ∧ entry.field = options.field := by
  have named := List.find?_some found
  simp only [Bool.and_eq_true, beq_iff_eq] at named
  exact ⟨List.mem_of_find?_eq_some found, named⟩

/-- What a module is refused for. -/
theorem meter_eq_error {fault : MeteringError} (failed : m.meter tariff options = .error fault) :
    (m.conflict? options ≠ none ∧ fault = .conflictingImport options.module options.field) ∨
      (m.conflict? options = none ∧ (fault.OfFunctions ∨ fault.OfCode)) := by
  cases found : m.conflict? options with
  | some entry =>
      obtain ⟨_, sameModule, sameField⟩ := conflict?_eq_some found
      rw [meter, found] at failed
      cases failed
      rw [sameModule, sameField]
      exact Or.inl ⟨Option.some_ne_none entry, rfl⟩
  | none =>
      rw [meter_of_noConflict found] at failed
      exact Or.inr ⟨rfl, Meter.meterModule_failsWith _ _ fault failed⟩

end Module

end WasmGas

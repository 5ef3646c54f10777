import WasmGas.Proofs.Metering.Bodies

/-! # What is checked before anything is charged

A module is refused if it imports the metering function already, if functions and bodies do not
pair up, or if the type of a function is not known (`Module.Meterable`). The checks look at the
first section of a kind; where a kind may come only once, that is the only one.
-/

namespace WasmGas

/-- Every function has a known type exactly if what it costs to enter them can be told. -/
theorem entryCosts_ok_iff {tariff : Tariff} {signatures : List Signature} {function : UInt32}
    {typeIndices : List UInt32} :
    (∃ entries, entryCosts tariff signatures function typeIndices = .ok entries) ↔
      ∀ typeIndex ∈ typeIndices, typeIndex.toNat < signatures.length := by
  induction typeIndices generalizing function with
  | nil => exact ⟨fun _ => nofun, fun _ => ⟨[], rfl⟩⟩
  | cons typeIndex others known =>
      have rest := @known (function + 1)
      rw [List.forall_mem_cons, ← rest, entryCosts]
      cases typed : signatures[typeIndex.toNat]? with
      | none =>
          have unknown := List.getElem?_eq_none_iff.mp typed
          constructor
          · rintro ⟨entries, done⟩
            cases done
          · rintro ⟨bound, _⟩
            omega
      | some signature =>
          obtain ⟨bound, _⟩ := List.getElem?_eq_some_iff.mp typed
          constructor
          · rintro ⟨entries, done⟩
            obtain ⟨rest, further, _⟩ := Except.bind_eq_ok.mp done
            exact ⟨bound, rest, further⟩
          · rintro ⟨_, rest, further⟩
            exact ⟨_, Except.bind_eq_ok.mpr ⟨rest, further, rfl⟩⟩

namespace Module

variable {m : Module} {options : MeteringOptions}

/-- Whether a module passes what is checked before its bodies are looked at. The signature of
the metering function counts as known. -/
structure Meterable (m : Module) (options : MeteringOptions) : Prop where
  noConflict : ∀ entry ∈ m.imports?.getD [],
    ¬ (entry.module = options.module ∧ entry.field = options.field)
  functions : m.count .functions ≤ 1
  code : m.count .code ≤ 1
  paired : ∀ bodies, m.bodies? = some bodies → bodies.length = (m.typeIndices?.getD []).length
  typed : ∀ typeIndex ∈ m.typeIndices?.getD [],
    typeIndex.toNat < (m.signatures?.getD [] ++ [options.signature]).length

/-- There is no conflict if no import has both names. -/
theorem conflict?_eq_none_iff : m.conflict? options = none ↔
    ∀ entry ∈ m.imports?.getD [],
      ¬ (entry.module = options.module ∧ entry.field = options.field) := by
  simp only [conflict?, List.find?_eq_none, Bool.and_eq_true, beq_iff_eq]

/-- Without a conflict the module with the metering function is charged for. -/
theorem meter_of_noConflict {tariff : Tariff} (free : m.conflict? options = none) :
    m.meter tariff options =
      (m.meterOf tariff options).meterModule (m.withMeteringImport options) := by
  rw [meter, free]
  rfl

/-- A module with a code section has bodies. -/
theorem bodies?_of_has_code (has : m.has .code = true) : ∃ bodies, m.bodies? = some bodies := by
  obtain ⟨content, inside, isCode⟩ := List.any_eq_true.mp has
  have found : (m.sections.findSome? Section.bodies?).isSome = true := by
    refine List.findSome?_isSome_iff.mpr ⟨content, inside, ?_⟩
    cases content <;> first | rfl | cases isCode
  exact Option.isSome_iff_exists.mp found

/-- Bodies are accepted if there is one for each function. -/
theorem checkBodies_eq_ok : m.checkBodies = .ok () ↔
    ∀ bodies, m.bodies? = some bodies → bodies.length = (m.typeIndices?.getD []).length := by
  constructor
  · exact fun checked bodies => length_bodies_of_checkBodies checked
  · intro paired
    refine Except.check_eq_ok.mpr ⟨fun ⟨other, has⟩ => other ?_, rfl⟩
    obtain ⟨bodies, held⟩ := bodies?_of_has_code has
    rw [held]
    exact paired bodies held

/-- Adding the metering function does not change whether bodies and functions fit. -/
theorem paired_withMeteringImport :
    (∀ bodies, (m.withMeteringImport options).bodies? = some bodies →
      bodies.length = ((m.withMeteringImport options).typeIndices?.getD []).length) ↔
        ∀ bodies, m.bodies? = some bodies →
          bodies.length = (m.typeIndices?.getD []).length := by
  rw [bodies?_withMeteringImport, typeIndices?_withMeteringImport]
  cases m.bodies? with
  | none => exact ⟨fun _ => nofun, fun _ => nofun⟩
  | some bodies =>
      simp only [Option.map_some, Option.some.injEq, forall_eq', List.length_map]

/-- Once the other checks are passed, only the types are left to look up. -/
theorem entryCosts_withMeteringImport {tariff : Tariff} {first : UInt32}
    (functions : m.count .functions ≤ 1) (code : m.count .code ≤ 1)
    (paired : ∀ bodies, m.bodies? = some bodies →
      bodies.length = (m.typeIndices?.getD []).length) :
    (m.withMeteringImport options).entryCosts tariff first =
      WasmGas.entryCosts tariff (m.signatures?.getD [] ++ [options.signature]) first
        (m.typeIndices?.getD []) := by
  rw [← m.count_withMeteringImport options (by decide) (by decide)] at functions
  rw [← m.count_code_withMeteringImport options] at code
  rw [entryCosts, checkSingle_eq_ok.mpr functions, checkSingle_eq_ok.mpr code,
    checkBodies_eq_ok.mpr (paired_withMeteringImport.mpr paired), signatures?_withMeteringImport,
    typeIndices?_withMeteringImport]
  rfl

/-- The checks are passed exactly if what it costs to enter the functions can be told. -/
theorem meterable_iff {tariff : Tariff} {first : UInt32} : m.Meterable options ↔
    m.conflict? options = none ∧
      ∃ entries, (m.withMeteringImport options).entryCosts tariff first = .ok entries := by
  have known : (∃ entries, WasmGas.entryCosts tariff (m.signatures?.getD [] ++ [options.signature])
      first (m.typeIndices?.getD []) = .ok entries) ↔ ∀ typeIndex ∈ m.typeIndices?.getD [],
        typeIndex.toNat < (m.signatures?.getD [] ++ [options.signature]).length :=
    entryCosts_ok_iff
  constructor
  · rintro ⟨noConflict, functions, code, paired, typed⟩
    rw [entryCosts_withMeteringImport functions code paired]
    exact ⟨conflict?_eq_none_iff.mpr noConflict, known.mpr typed⟩
  · rintro ⟨free, entries, done⟩
    obtain ⟨_, functions, rest⟩ := Except.bind_eq_ok.mp done
    obtain ⟨single, checked, costs⟩ := entryCosts_eq_ok done
    rw [signatures?_withMeteringImport, typeIndices?_withMeteringImport] at costs
    have declared := checkSingle_eq_ok.mp functions
    rw [m.count_withMeteringImport options (by decide) (by decide)] at declared
    rw [count_code_withMeteringImport] at single
    exact ⟨conflict?_eq_none_iff.mp free, declared, single,
      paired_withMeteringImport.mp (checkBodies_eq_ok.mp checked), known.mp ⟨entries, costs⟩⟩

end Module

end WasmGas

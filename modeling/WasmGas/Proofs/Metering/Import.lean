import WasmGas.Metering.Inject

/-! # Adding the metering function

The metering function takes an entry at the end of the first section with signatures and of the
first one with imports, or else in new ones (`Appends`); no other section is touched. Then the
functions are renumbered: no section changes its kind, and no direct call goes to the new
function (`Instruction.callTarget?_renumber_ne`). So the module that is charged for has one
signature more than the original one, and the same functions and renumbered bodies.
-/

namespace WasmGas

/-! ## Entries at the end -/

/-- Only the first section that can be changed is. -/
theorem updateFirst?_eq_some {change? : Section → Option Section} {sections changed : List Section}
    (done : updateFirst? change? sections = some changed) :
    ∃ before old new after, sections = before ++ old :: after ∧
      (∀ earlier ∈ before, change? earlier = none) ∧ change? old = some new ∧
      changed = before ++ new :: after := by
  induction sections generalizing changed with
  | nil => cases done
  | cons head tail found =>
      rw [updateFirst?] at done
      cases changes : change? head with
      | some new =>
          simp only [changes] at done
          cases done
          exact ⟨[], head, new, tail, rfl, nofun, changes, rfl⟩
      | none =>
          simp only [changes, Option.map_eq_some_iff] at done
          obtain ⟨rest, later, rfl⟩ := done
          obtain ⟨before, old, new, after, rfl, unchanged, changes', rfl⟩ := found later
          exact ⟨head :: before, old, new, after, rfl,
            List.forall_mem_cons.mpr ⟨changes, unchanged⟩, changes', rfl⟩

/-- Where no section is changed none can be. -/
theorem updateFirst?_eq_none {change? : Section → Option Section} {sections : List Section}
    (failed : updateFirst? change? sections = none) :
    ∀ old ∈ sections, change? old = none := by
  induction sections with
  | nil => exact nofun
  | cons head tail unchanged =>
      rw [updateFirst?] at failed
      cases changes : change? head with
      | some new =>
          simp only [changes] at failed
          cases failed
      | none =>
          simp only [changes, Option.map_eq_none_iff] at failed
          exact List.forall_mem_cons.mpr ⟨changes, unchanged failed⟩

/-- A section is put between others. -/
theorem Section.insertInto_eq (added : Section) (sections : List Section) :
    ∃ before after, sections = before ++ after ∧
      added.insertInto sections = before ++ added :: after := by
  induction sections with
  | nil => exact ⟨[], [], rfl, rfl⟩
  | cons head tail found =>
      by_cases above : head.ranksAbove added.kind = true
      · refine ⟨[], head :: tail, rfl, ?_⟩
        rw [insertInto, if_pos above, List.nil_append]
      · obtain ⟨before, after, rfl, inserted⟩ := found
        refine ⟨head :: before, after, rfl, ?_⟩
        rw [insertInto, if_neg above, inserted, List.cons_append]

/-- A section with signatures is one of types. -/
theorem Section.eq_types_of_signatures? {content : Section} {entries : List Signature}
    (held : content.signatures? = some entries) : content = .types entries := by
  cases content <;> cases held
  rfl

/-- A section with imported entries is one of imports. -/
theorem Section.eq_imports_of_imports? {content : Section} {entries : List ImportEntry}
    (held : content.imports? = some entries) : content = .imports entries := by
  cases content <;> cases held
  rfl

/-- An entry comes last in the first of the sections that hold such entries, or in a new
one if there is none. -/
inductive Appends {α : Type} (view : Section → Option (List α)) (make : List α → Section)
    (entry : α) : List Section → List Section → Prop
  | last {before after : List Section} {entries : List α} :
      (∀ earlier ∈ before, view earlier = none) →
        Appends view make entry (before ++ make entries :: after)
          (before ++ make (entries ++ [entry]) :: after)
  | new {before after : List Section} :
      (∀ other ∈ before ++ after, view other = none) →
        Appends view make entry (before ++ after) (before ++ make [entry] :: after)

namespace Appends

variable {α β : Type} {view : Section → Option (List α)} {make : List α → Section} {entry : α}
  {sections changed : List Section}

/-- The first section of its kind has the added entry at its end. -/
theorem findSome?_eq (appends : Appends view make entry sections changed)
    (viewed : ∀ entries, view (make entries) = some entries) :
    changed.findSome? view = some ((sections.findSome? view).getD [] ++ [entry]) := by
  cases appends with
  | last silent =>
      simp only [List.findSome?_append, List.findSome?_eq_none_iff.mpr silent, List.findSome?_cons,
        viewed, Option.none_or, Option.getD_some]
  | new silent =>
      have none := List.findSome?_eq_none_iff.mpr silent
      have front := List.findSome?_eq_none_iff.mpr fun other inside =>
        silent other (List.mem_append_left _ inside)
      rw [none, List.findSome?_append, front, List.findSome?_cons, viewed]
      rfl

/-- Look-ups that such sections do not answer stay as they are. -/
theorem findSome?_other (appends : Appends view make entry sections changed)
    {other : Section → Option β} (silent : ∀ entries, other (make entries) = none) :
    changed.findSome? other = sections.findSome? other := by
  cases appends <;>
    simp only [List.findSome?_append, List.findSome?_cons, silent]

/-- Adding an entry does not change how many sections of other kinds there are. -/
theorem countP_eq (appends : Appends view make entry sections changed) {p : Section → Bool}
    (silent : ∀ entries, p (make entries) = false) : changed.countP p = sections.countP p := by
  cases appends <;>
    simp only [List.countP_append, List.countP_cons, silent, Bool.false_eq_true, ↓reduceIte,
      Nat.add_zero]

/-- What is put at the end of the first section is put there, and what is put in a new section
stands alone. -/
theorem of_update (made : ∀ {old entries}, view old = some entries → old = make entries)
    (entry : α) (sections : List Section) :
    Appends view make entry sections
      (match updateFirst? (fun s => (view s).map fun entries => make (entries ++ [entry])) sections
        with
      | some changed => changed
      | none => (make [entry]).insertInto sections) := by
  cases updated : updateFirst? (fun s => (view s).map fun entries => make (entries ++ [entry]))
      sections with
  | some changed =>
      obtain ⟨before, old, new, after, rfl, silent, changes, rfl⟩ := updateFirst?_eq_some updated
      obtain ⟨entries, held, rfl⟩ := Option.map_eq_some_iff.mp changes
      rw [made held]
      exact .last fun earlier inside => Option.map_eq_none_iff.mp (silent earlier inside)
  | none =>
      obtain ⟨before, after, rfl, inserted⟩ := Section.insertInto_eq (make [entry]) sections
      dsimp only
      rw [inserted]
      exact .new fun other inside =>
        Option.map_eq_none_iff.mp (updateFirst?_eq_none updated other inside)

end Appends

namespace Module

/-- A signature goes into the first section of types, or into a new one. -/
theorem sections_addSignature (m : Module) (signature : Signature) :
    (m.addSignature signature).sections =
      match updateFirst? (fun s => s.signatures?.map fun entries => .types (entries ++ [signature]))
        m.sections with
      | some changed => changed
      | none => (Section.types [signature]).insertInto m.sections := by
  rw [addSignature]
  cases updateFirst? _ m.sections <;> rfl

theorem sections_addImport (m : Module) (entry : ImportEntry) :
    (m.addImport entry).sections =
      match updateFirst? (fun s => s.imports?.map fun entries => .imports (entries ++ [entry]))
        m.sections with
      | some changed => changed
      | none => (Section.imports [entry]).insertInto m.sections := by
  rw [addImport]
  cases updateFirst? _ m.sections <;> rfl

/-- A signature is added behind those of the first section of types. -/
theorem addSignature_appends (m : Module) (signature : Signature) :
    Appends Section.signatures? .types signature m.sections
      (m.addSignature signature).sections := by
  rw [sections_addSignature]
  exact Appends.of_update Section.eq_types_of_signatures? signature m.sections

theorem addImport_appends (m : Module) (entry : ImportEntry) :
    Appends Section.imports? .imports entry m.sections (m.addImport entry).sections := by
  rw [sections_addImport]
  exact Appends.of_update Section.eq_imports_of_imports? entry m.sections

end Module

/-! ## Renumbering -/

/-- No function keeps the index of the new one, or gets it. -/
theorem shiftIndex_ne {insertion : UInt32} (small : insertion.toNat + 1 < UInt32.size)
    (index : UInt32) : shiftIndex insertion index ≠ insertion := by
  intro same
  have sameNat := congrArg UInt32.toNat same
  unfold shiftIndex at sameNat
  by_cases below : index < insertion
  · rw [if_pos below] at sameNat
    have := UInt32.lt_iff_toNat_lt.mp below
    omega
  · rw [if_neg below] at sameNat
    have above := Nat.le_of_not_lt (mt UInt32.lt_iff_toNat_lt.mpr below)
    by_cases room : index.toNat + 1 < UInt32.size
    · rw [if_pos room, UInt32.toNat_add, UInt32.toNat_one, Nat.mod_eq_of_lt room] at sameNat
      omega
    · rw [if_neg room] at sameNat
      omega

theorem Instruction.name_renumber (insertion : UInt32) (instruction : Instruction) :
    (instruction.renumber insertion).name = instruction.name := by
  unfold renumber
  cases instruction.callTarget? <;> rfl

/-- A direct call is told by its name and its immediate. -/
theorem Instruction.callTarget?_eq_some_iff {instruction : Instruction} {target : UInt32} :
    instruction.callTarget? = some target ↔
      instruction.name = "call" ∧ instruction.immediate = some (.index target) := by
  obtain ⟨name, qualifier, immediate⟩ := instruction
  unfold callTarget?
  split
  · rename_i held
    simp only at held
    simp [isCall, held]
  · rename_i other
    simp only [reduceCtorEq, false_iff, not_and]
    exact fun _ held => other target held

/-- A call is of the function that it was of. -/
theorem Instruction.callTarget?_renumber (insertion : UInt32) (instruction : Instruction) :
    (instruction.renumber insertion).callTarget? =
      instruction.callTarget?.map (shiftIndex insertion) := by
  cases target : instruction.callTarget? with
  | none => simp only [renumber, target, Option.map_none]
  | some index =>
      obtain ⟨named, _⟩ := callTarget?_eq_some_iff.mp target
      have changed : instruction.renumber insertion =
          { instruction with immediate := some (.index (shiftIndex insertion index)) } := by
        rw [renumber, target]
      rw [changed]
      exact callTarget?_eq_some_iff.mpr ⟨named, rfl⟩

/-- No original call is of the metering function. -/
theorem Instruction.callTarget?_renumber_ne {insertion : UInt32}
    (small : insertion.toNat + 1 < UInt32.size) (instruction : Instruction) :
    (instruction.renumber insertion).callTarget? ≠ some insertion := by
  rw [callTarget?_renumber]
  intro hit
  obtain ⟨index, _, shifted⟩ := Option.map_eq_some_iff.mp hit
  exact shiftIndex_ne small index shifted

namespace Section

variable (insertion : UInt32) (name : String)

theorem kind_renumber (content : Section) :
    (content.renumber insertion name).kind = content.kind := by
  unfold renumber
  split <;> rfl

theorem bodies?_renumber (content : Section) :
    (content.renumber insertion name).bodies? =
      content.bodies?.map (·.map (·.renumber insertion)) := by
  cases content with
  | custom title payload => cases payload <;> rfl
  | _ => rfl

theorem typeIndices?_renumber (content : Section) :
    (content.renumber insertion name).typeIndices? = content.typeIndices? := by
  cases content with
  | custom title payload => cases payload <;> rfl
  | _ => rfl

theorem signatures?_renumber (content : Section) :
    (content.renumber insertion name).signatures? = content.signatures? := by
  cases content with
  | custom title payload => cases payload <;> rfl
  | _ => rfl

end Section

/-! ## The module that is charged for -/

namespace Module

variable (m : Module) (options : MeteringOptions)

/-- A signature is added, an entry is added, and then all is renumbered. -/
theorem sections_withMeteringImport :
    ∃ typed imported, Appends Section.signatures? .types options.signature m.sections typed ∧
      Appends Section.imports? .imports
        ⟨options.module, options.field, .function m.nextTypeIndex⟩ typed imported ∧
      (m.withMeteringImport options).sections =
        imported.map (·.renumber m.importedFunctions options.functionName) :=
  ⟨_, _, m.addSignature_appends options.signature, addImport_appends _ _, rfl⟩

/-- Imported functions are counted as long as their number fits. -/
theorem toNat_importedFunctions
    (few : (m.imports?.getD []).countP (·.isFunction) < UInt32.size) :
    m.importedFunctions.toNat = (m.imports?.getD []).countP (·.isFunction) :=
  UInt32.toNat_ofNat_of_lt' few

/-- The signature of the metering function comes last. -/
theorem signatures?_withMeteringImport :
    (m.withMeteringImport options).signatures? =
      some (m.signatures?.getD [] ++ [options.signature]) := by
  obtain ⟨typed, imported, one, other, same⟩ := m.sections_withMeteringImport options
  have untouched : (Section.signatures? ∘ fun content : Section =>
      content.renumber m.importedFunctions options.functionName) = Section.signatures? :=
    funext fun content => content.signatures?_renumber _ _
  rw [signatures?, same, List.findSome?_map, untouched, other.findSome?_other fun _ => rfl,
    one.findSome?_eq fun _ => rfl]
  rfl

/-- Adding the metering function leaves the types of functions. -/
theorem typeIndices?_withMeteringImport :
    (m.withMeteringImport options).typeIndices? = m.typeIndices? := by
  obtain ⟨typed, imported, one, other, same⟩ := m.sections_withMeteringImport options
  have untouched : (Section.typeIndices? ∘ fun content : Section =>
      content.renumber m.importedFunctions options.functionName) = Section.typeIndices? :=
    funext fun content => content.typeIndices?_renumber _ _
  rw [typeIndices?, same, List.findSome?_map, untouched, other.findSome?_other fun _ => rfl,
    one.findSome?_other fun _ => rfl]
  rfl

/-- Adding the metering function renumbers bodies. -/
theorem bodies?_withMeteringImport :
    (m.withMeteringImport options).bodies? =
      m.bodies?.map (·.map (·.renumber m.importedFunctions)) := by
  obtain ⟨typed, imported, one, other, same⟩ := m.sections_withMeteringImport options
  have renumbered : (Section.bodies? ∘ fun content : Section =>
      content.renumber m.importedFunctions options.functionName) =
        fun content => content.bodies?.map (·.map (·.renumber m.importedFunctions)) :=
    funext fun content => content.bodies?_renumber _ _
  rw [bodies?, same, List.findSome?_map, renumbered, other.findSome?_other fun _ => rfl,
    one.findSome?_other fun _ => rfl, bodies?]
  induction m.sections with
  | nil => rfl
  | cons head tail mapped =>
      rw [List.findSome?_cons, List.findSome?_cons]
      cases head.bodies? with
      | none => exact mapped
      | some bodies => rfl

/-- Only types and imports can get a section more. -/
theorem count_withMeteringImport {kind : SectionKind} (notTypes : kind ≠ .types)
    (notImports : kind ≠ .imports) : (m.withMeteringImport options).count kind = m.count kind := by
  obtain ⟨typed, imported, one, other, same⟩ := m.sections_withMeteringImport options
  have untouched : ((fun content : Section => content.kind == kind) ∘ fun content : Section =>
      content.renumber m.importedFunctions options.functionName) =
        fun content : Section => content.kind == kind :=
    funext fun content => congrArg (· == kind) (content.kind_renumber _ _)
  have typesSilent (entries : List Signature) : ((Section.types entries).kind == kind) = false :=
    beq_eq_false_iff_ne.mpr notTypes.symm
  have importsSilent (entries : List ImportEntry) :
      ((Section.imports entries).kind == kind) = false :=
    beq_eq_false_iff_ne.mpr notImports.symm
  calc (m.withMeteringImport options).count kind
      = imported.countP (·.kind == kind) := by rw [count, same, List.countP_map, untouched]
    _ = typed.countP (·.kind == kind) :=
        other.countP_eq (p := fun content => content.kind == kind) importsSilent
    _ = m.count kind := one.countP_eq (p := fun content => content.kind == kind) typesSilent

theorem count_code_withMeteringImport :
    (m.withMeteringImport options).count .code = m.count .code :=
  m.count_withMeteringImport options (by decide) (by decide)

end Module

end WasmGas

import WasmGas.Proofs.Metering.Checks
import WasmGas.Proofs.Metering.References
import WasmGas.Proofs.Module.Entries

/-! # The function space

The functions of a module are the imported ones, from all sections with imports, and after them its
own (`Module.functionSpace`). Metering adds one function among the imported ones and renumbers. The
place of the added function and the index from which on others move are found in different
ways, but they agree: an index of some function becomes the index of what has become of that
function, wherever it stands (`Module.meter_keepsFunctions`).
-/

namespace WasmGas

variable {α β : Type}

/-- A function of a module: an import, or a type and a body. There are no bodies without a code
section. -/
inductive ModuleFunction where
  | imported (entry : ImportEntry)
  | defined (typeIndex : UInt32) (body : Option FunctionBody)
  deriving DecidableEq, Repr

/-- Types and bodies, paired by position. -/
def definedFunctions (typeIndices : List UInt32) (bodies : List FunctionBody) :
    List ModuleFunction :=
  typeIndices.mapIdx fun position typeIndex => .defined typeIndex bodies[position]?

/-- The functions of a module, by index. -/
def Module.functionSpace (m : Module) : List ModuleFunction :=
  ((m.entries Section.imports?).filter (·.isFunction)).map .imported ++
    definedFunctions (m.entries Section.typeIndices?) (m.entries Section.bodies?)

/-- What becomes of a function by metering. Its type is looked up among some signatures. -/
inductive Meter.MetersFunction (meter : Meter) (signatures : List Signature) :
    ModuleFunction → ModuleFunction → Prop
  | imported (entry : ImportEntry) :
      MetersFunction meter signatures (.imported entry) (.imported entry)
  | declared (typeIndex : UInt32) :
      MetersFunction meter signatures (.defined typeIndex none) (.defined typeIndex none)
  | defined {typeIndex : UInt32} {signature : Signature} {body metered : FunctionBody}
      {layout : List ChargedRun} :
      signatures[typeIndex.toNat]? = some signature →
        meter.MetersBody signature body metered layout →
          MetersFunction meter signatures (.defined typeIndex (some body))
            (.defined typeIndex (some metered))

/-- What becomes of a section by metering. -/
inductive Meter.MetersSection (meter : Meter) (callCost : Gas) (first : UInt32)
    (entries : List Gas) : Section → Section → Prop
  | code {bodies others : List FunctionBody} {gas : Gas} :
      meter.meterBodies callCost first entries bodies = .ok (others, gas) →
        MetersSection meter callCost first entries (.code bodies) (.code others)
  | other {content : Section} :
      content.bodies? = none → MetersSection meter callCost first entries content content

/-! ## Positions -/

/-- Lists are related entry by entry if they are at each place. -/
theorem forall₂_iff_getElem? {related : α → β → Prop} {one : List α} {other : List β} :
    List.Forall₂ related one other ↔ one.length = other.length ∧
      ∀ (i : Nat) (a : α), one[i]? = some a → ∃ b, other[i]? = some b ∧ related a b := by
  rw [List.forall₂_iff_get]
  refine and_congr_right fun lengths => ⟨?_, ?_⟩
  · intro each i a there
    obtain ⟨bound, rfl⟩ := List.getElem?_eq_some_iff.mp there
    have bound' : i < other.length := lengths ▸ bound
    exact ⟨_, List.getElem?_eq_getElem bound', each i bound bound'⟩
  · intro each i bound bound'
    obtain ⟨b, there, holds⟩ := each i _ (List.getElem?_eq_getElem bound)
    rw [List.getElem?_eq_getElem bound'] at there
    cases there
    exact holds

/-- Functions of a module are related if their bodies are. -/
theorem forall₂_definedFunctions {becomes : ModuleFunction → ModuleFunction → Prop}
    {typeIndices : List UInt32} {bodies others : List FunctionBody}
    (lengths : others.length = bodies.length)
    (declared : ∀ typeIndex, becomes (.defined typeIndex none) (.defined typeIndex none))
    (each : ∀ {i : Nat} {typeIndex body}, typeIndices[i]? = some typeIndex →
      bodies[i]? = some body → ∃ other, others[i]? = some other ∧
        becomes (.defined typeIndex (some body)) (.defined typeIndex (some other))) :
    List.Forall₂ becomes (definedFunctions typeIndices bodies)
      (definedFunctions typeIndices others) := by
  refine forall₂_iff_getElem?.mpr ⟨?_, fun i function there => ?_⟩
  · rw [definedFunctions, definedFunctions, List.length_mapIdx, List.length_mapIdx]
  rw [definedFunctions, List.getElem?_mapIdx] at there
  obtain ⟨typeIndex, typed, rfl⟩ := Option.map_eq_some_iff.mp there
  rw [definedFunctions, List.getElem?_mapIdx, typed, Option.map_some]
  refine ⟨_, rfl, ?_⟩
  cases held : bodies[i]? with
  | none =>
      have none' : others[i]? = none :=
        List.getElem?_eq_none_iff.mpr (lengths ▸ List.getElem?_eq_none_iff.mp held)
      rw [none']
      exact declared typeIndex
  | some body =>
      obtain ⟨other, found, becomes⟩ := each typed held
      rw [found]
      exact becomes

/-! ## Entries of a metered module -/

section Entries

variable {view : Section → Option (List α)} {make : List β → Section} {entry : β}
  {sections changed : List Section}

/-- Adding an entry to one section leaves the entries of other kinds. -/
theorem Appends.entriesOf_other {seen : Section → Option (List β)}
    (appends : Appends seen make entry sections changed)
    (silent : ∀ entries, view (make entries) = none) :
    entriesOf view changed = entriesOf view sections := by
  cases appends <;>
    simp only [entriesOf_append, entriesOf_cons, silent, Option.getD_none, List.nil_append]

/-- An added entry comes after those of the first section, and before those of all others. -/
theorem Appends.entriesOf_eq {seen : Section → Option (List β)}
    (appends : Appends seen make entry sections changed)
    (viewed : ∀ entries, seen (make entries) = some entries) :
    ∃ rest, entriesOf seen sections = (sections.findSome? seen).getD [] ++ rest ∧
      entriesOf seen changed = (sections.findSome? seen).getD [] ++ entry :: rest := by
  cases appends with
  | @last before after entries silent =>
      refine ⟨entriesOf seen after, ?_, ?_⟩
      · simp only [entriesOf_append, entriesOf_eq_nil silent, entriesOf_cons, viewed,
          List.findSome?_append, List.findSome?_eq_none_iff.mpr silent, List.findSome?_cons,
          Option.none_or, Option.getD_some, List.nil_append]
      · simp only [entriesOf_append, entriesOf_eq_nil silent, entriesOf_cons, viewed,
          List.findSome?_append, List.findSome?_eq_none_iff.mpr silent, List.findSome?_cons,
          Option.none_or, Option.getD_some, List.nil_append, List.append_assoc,
          List.singleton_append]
  | @new before after silent =>
      obtain ⟨front, back⟩ := List.forall_mem_append.mp silent
      refine ⟨[], ?_, ?_⟩
      · rw [entriesOf_eq_nil silent, List.findSome?_eq_none_iff.mpr silent]
        rfl
      · rw [entriesOf_append, entriesOf_cons, entriesOf_eq_nil front, entriesOf_eq_nil back, viewed,
          List.findSome?_eq_none_iff.mpr silent]
        rfl

/-- What is done to each section is done to each entry. -/
theorem entriesOf_map {change : Section → Section} {each : α → α}
    (viewed : ∀ content, view (change content) = (view content).map (·.map each))
    (sections : List Section) :
    entriesOf view (sections.map change) = (entriesOf view sections).map each := by
  induction sections with
  | nil => rfl
  | cons head tail same =>
      rw [List.map_cons, entriesOf_cons, entriesOf_cons, List.map_append, same, viewed]
      cases view head <;> rfl

/-- Sections are metered one by one. -/
theorem Meter.meterSections_forall₂ {meter : Meter} {callCost gas : Gas} {first : UInt32}
    {entries : List Gas} {metered : List Section}
    (done : meter.meterSections callCost first entries sections = .ok (metered, gas)) :
    List.Forall₂ (meter.MetersSection callCost first entries) sections metered := by
  induction sections generalizing metered gas with
  | nil =>
      cases done
      exact .nil
  | cons head tail each =>
      cases held : head.bodies? with
      | some bodies =>
          cases head <;> cases held
          obtain ⟨⟨others, more⟩, one, rest⟩ := Except.bind_eq_ok.mp done
          obtain ⟨⟨behind, remaining⟩, further, put⟩ := Except.bind_eq_ok.mp rest
          cases put
          exact .cons (.code one) (each further)
      | none =>
          rw [meterSections_cons_other held] at done
          obtain ⟨⟨behind, remaining⟩, further, put⟩ := Except.bind_eq_ok.mp done
          cases put
          exact .cons (.other held) (each further)

variable {meter : Meter} {callCost : Gas} {first : UInt32} {entries : List Gas}

/-- Metering leaves all entries but bodies. -/
theorem Meter.MetersSection.entriesOf_eq {metered : List Section}
    (each : List.Forall₂ (meter.MetersSection callCost first entries) sections metered)
    (silent : ∀ bodies, view (.code bodies) = none) :
    entriesOf view metered = entriesOf view sections := by
  induction each with
  | nil => rfl
  | cons one _ same =>
      rw [entriesOf_cons, entriesOf_cons, same]
      cases one with
      | code _ => rw [silent, silent]
      | other _ => rfl

/-- Where neither renumbering nor charging changes entries. -/
theorem Meter.MetersSection.entriesOf_kept {change : Section → Section} {metered : List Section}
    (each : List.Forall₂ (meter.MetersSection callCost first entries) (sections.map change) metered)
    (silent : ∀ bodies, view (.code bodies) = none)
    (kept : ∀ content, view (change content) = view content) :
    entriesOf view metered = entriesOf view sections := by
  have viewed (content : Section) : view (change content) = (view content).map (·.map id) := by
    rw [kept, List.map_id_fun, Option.map_id_fun, id]
  rw [entriesOf_eq each silent, entriesOf_map viewed, List.map_id]

/-- Metering leaves the kinds of sections. -/
theorem Meter.MetersSection.map_kind {metered : List Section}
    (each : List.Forall₂ (meter.MetersSection callCost first entries) sections metered) :
    metered.map (·.kind) = sections.map (·.kind) := by
  induction each with
  | nil => rfl
  | cons one _ same =>
      rw [List.map_cons, List.map_cons, same]
      cases one <;> rfl

end Entries

namespace Section

variable (insertion : UInt32) (name : String) (content : Section)

theorem imports?_renumber : (content.renumber insertion name).imports? = content.imports? := by
  cases content with
  | custom title payload => cases payload <;> rfl
  | _ => rfl

theorem exports?_renumber : (content.renumber insertion name).exports? =
    content.exports?.map (·.map (·.renumber insertion)) := by
  cases content with
  | custom title payload => cases payload <;> rfl
  | _ => rfl

theorem elements?_renumber : (content.renumber insertion name).elements? =
    content.elements?.map (·.map (·.renumber insertion)) := by
  cases content with
  | custom title payload => cases payload <;> rfl
  | _ => rfl

theorem starts?_renumber : (content.renumber insertion name).starts? =
    content.starts?.map (·.map (shiftIndex insertion)) := by
  cases content with
  | custom title payload => cases payload <;> rfl
  | _ => rfl

end Section

namespace Module

variable {m metered : Module} {tariff : Tariff} {options : MeteringOptions} {gas : Gas}

/-- A module that is metered could be. -/
theorem meterable_of_meter (done : m.meter tariff options = .ok (metered, gas)) :
    m.Meterable options := by
  obtain ⟨free, charged⟩ := meter_eq_ok done
  obtain ⟨entries, _, known, _, _⟩ := Meter.meterModule_eq_ok charged
  exact meterable_iff.mpr ⟨free, entries, known⟩

/-- The sections of a metered module come about in four steps. -/
theorem sections_of_meter (done : m.meter tariff options = .ok (metered, gas)) :
    ∃ typed imported callCost first entries,
      Appends Section.signatures? .types options.signature m.sections typed ∧
      Appends Section.imports? .imports
        ⟨options.module, options.field, .function m.nextTypeIndex⟩ typed imported ∧
      List.Forall₂ ((m.meterOf tariff options).MetersSection callCost first entries)
        (imported.map (·.renumber m.importedFunctions options.functionName)) metered.sections := by
  obtain ⟨typed, imported, one, other, same⟩ := m.sections_withMeteringImport options
  obtain ⟨entries, sections, _, charged, rfl⟩ := Meter.meterModule_eq_ok (meter_eq_ok done).2
  rw [same] at charged
  exact ⟨typed, imported, _, _, entries, one, other, Meter.meterSections_forall₂ charged⟩

/-- Entries that metering does not add to are renumbered one by one. -/
theorem entries_of_meter (done : m.meter tariff options = .ok (metered, gas))
    {view : Section → Option (List α)} {each : α → α}
    (types : ∀ entries, view (.types entries) = none)
    (imports : ∀ entries, view (.imports entries) = none)
    (code : ∀ bodies, view (.code bodies) = none)
    (renumbered : ∀ content : Section,
      view (content.renumber m.importedFunctions options.functionName) =
        (view content).map (·.map each)) :
    metered.entries view = (m.entries view).map each := by
  obtain ⟨typed, imported, _, _, _, one, other, sections⟩ := sections_of_meter done
  rw [entries, Meter.MetersSection.entriesOf_eq sections code, entriesOf_map renumbered,
    other.entriesOf_other imports, one.entriesOf_other types]
  rfl

/-- Functions keep the indices of their types. -/
theorem typeIndices_of_meter (done : m.meter tariff options = .ok (metered, gas)) :
    metered.entries Section.typeIndices? = m.entries Section.typeIndices? := by
  obtain ⟨typed, imported, _, _, _, one, other, sections⟩ := sections_of_meter done
  rw [entries, Meter.MetersSection.entriesOf_kept sections (fun _ => rfl)
    (fun content => content.typeIndices?_renumber _ _), other.entriesOf_other fun _ => rfl,
    one.entriesOf_other fun _ => rfl]
  rfl

/-- The signature of the metering function comes last in the first section with signatures. -/
theorem signatures_of_meter (done : m.meter tariff options = .ok (metered, gas)) :
    ∃ rest, m.entries Section.signatures? = m.signatures?.getD [] ++ rest ∧
      metered.entries Section.signatures? =
        m.signatures?.getD [] ++ options.signature :: rest := by
  obtain ⟨typed, imported, _, _, _, one, other, sections⟩ := sections_of_meter done
  obtain ⟨rest, before, after⟩ := one.entriesOf_eq fun _ => rfl
  refine ⟨rest, before, ?_⟩
  rw [entries, Meter.MetersSection.entriesOf_kept sections (fun _ => rfl)
    (fun content => content.signatures?_renumber _ _), other.entriesOf_other fun _ => rfl, after]
  rfl

/-- The metering function comes last in the first section with imports. -/
theorem imports_of_meter (done : m.meter tariff options = .ok (metered, gas)) :
    ∃ rest, m.entries Section.imports? = m.imports?.getD [] ++ rest ∧
      metered.entries Section.imports? = m.imports?.getD [] ++
        ⟨options.module, options.field, .function m.nextTypeIndex⟩ :: rest := by
  obtain ⟨typed, imported, _, _, _, one, other, sections⟩ := sections_of_meter done
  obtain ⟨rest, before, after⟩ := other.entriesOf_eq fun _ => rfl
  have first : typed.findSome? Section.imports? = m.imports? := one.findSome?_other fun _ => rfl
  rw [first] at before after
  refine ⟨rest, ?_, ?_⟩
  · rw [← before, one.entriesOf_other fun _ => rfl]
    rfl
  · rw [entries, Meter.MetersSection.entriesOf_kept sections (fun _ => rfl)
      (fun content => content.imports?_renumber _ _), after]

/-- All bodies are in the one code section. -/
theorem bodies_of_meter (done : m.meter tariff options = .ok (metered, gas)) :
    metered.entries Section.bodies? = metered.bodies?.getD [] := by
  have single := count_code_of_meter done
  rw [← m.count_code_withMeteringImport options] at single
  obtain ⟨entries, sections, _, charged, rfl⟩ := Meter.meterModule_eq_ok (meter_eq_ok done).2
  have kinds := Meter.MetersSection.map_kind (Meter.meterSections_forall₂ charged)
  refine entries_bodies (Nat.le_trans (Nat.le_of_eq ?_) single)
  have counted := congrArg (List.countP (· == SectionKind.code)) kinds
  rwa [List.countP_map, List.countP_map] at counted

/-! ## Functions keep their meaning -/

/-- Indices of one function before and after metering: the function that is found at the new one is
what becomes of that at the old one, and as many stand in front of it if the function added at
`insertion` is not counted. -/
def SameFunction (becomes : ModuleFunction → ModuleFunction → Prop) (insertion : UInt32)
    (m metered : Module) (old new : UInt32) : Prop :=
  ∀ function, m.functionSpace[old.toNat]? = some function →
    ∃ other, metered.functionSpace[new.toNat]? = some other ∧ becomes function other ∧
      new.toNat = if old < insertion then old.toNat else old.toNat + 1

/-- An index leads to the function that it led to. -/
theorem sameFunction_shiftIndex {becomes : ModuleFunction → ModuleFunction → Prop}
    {insertion : UInt32} (few : m.functionSpace.length + 1 < UInt32.size)
    (kept : List.Forall₂ becomes m.functionSpace
      (metered.functionSpace.eraseIdx insertion.toNat)) (index : UInt32) :
    SameFunction becomes insertion m metered index (shiftIndex insertion index) := by
  intro function there
  obtain ⟨other, found, related⟩ := (forall₂_iff_getElem?.mp kept).2 _ _ there
  obtain ⟨bound, _⟩ := List.getElem?_eq_some_iff.mp there
  rw [List.getElem?_eraseIdx] at found
  by_cases below : index < insertion
  · rw [if_pos (UInt32.lt_iff_toNat_lt.mp below)] at found
    rw [shiftIndex_of_lt below, if_pos below]
    exact ⟨other, found, related, rfl⟩
  · rw [if_neg (mt UInt32.lt_iff_toNat_lt.mpr below)] at found
    -- No function has the greatest index, the only one that would stay.
    have place : (shiftIndex insertion index).toNat = index.toNat + 1 := by
      rw [toNat_shiftIndex_of_le (UInt32.not_lt.mp below)]
      omega
    rw [place, if_neg below]
    exact ⟨other, found, related, rfl⟩

/-- What becomes of the functions of a module. -/
def becomes (m : Module) (tariff : Tariff) (options : MeteringOptions) :
    ModuleFunction → ModuleFunction → Prop :=
  (m.meterOf tariff options).MetersFunction (m.signatures?.getD [] ++ [options.signature])

/-- Imported functions stay what they are. -/
theorem becomes_imported (entries : List ImportEntry) :
    List.Forall₂ (m.becomes tariff options) (entries.map .imported) (entries.map .imported) := by
  refine List.forall₂_same.mpr fun function listed => ?_
  obtain ⟨entry, _, rfl⟩ := List.mem_map.mp listed
  exact .imported entry

/-- Functions of the module keep their types and have their bodies metered. -/
theorem becomes_defined (done : m.meter tariff options = .ok (metered, gas)) :
    List.Forall₂ (m.becomes tariff options)
      (definedFunctions (m.entries Section.typeIndices?) (m.entries Section.bodies?))
      (definedFunctions (metered.entries Section.typeIndices?)
        (metered.entries Section.bodies?)) := by
  have meterable := meterable_of_meter done
  rw [typeIndices_of_meter done, bodies_of_meter done, entries_typeIndices meterable.functions,
    entries_bodies meterable.code]
  refine forall₂_definedFunctions (length_bodies_of_meter done)
    (fun typeIndex => .declared typeIndex) ?_
  intro i typeIndex body typed there
  obtain ⟨_, signature, other, layout, same, known, found, meters⟩ := metersBody_of_meter done there
  rw [typed] at same
  cases same
  exact ⟨other, found, .defined known meters⟩

/-- The functions are those that there were, but for one more behind the imported functions of
the first section with imports. -/
theorem functionSpace_of_meter (done : m.meter tariff options = .ok (metered, gas)) :
    ∃ before others others', m.functionSpace = before ++ others ∧
      metered.functionSpace = before ++
        .imported ⟨options.module, options.field, .function m.nextTypeIndex⟩ :: others' ∧
      before.length = (m.imports?.getD []).countP (·.isFunction) ∧
      List.Forall₂ (m.becomes tariff options) before before ∧
      List.Forall₂ (m.becomes tariff options) others others' := by
  obtain ⟨rest, imports, others⟩ := imports_of_meter done
  refine ⟨((m.imports?.getD []).filter (·.isFunction)).map .imported, _, _, ?_, ?_, ?_,
    becomes_imported _,
    List.rel_append (becomes_imported (rest.filter (·.isFunction))) (becomes_defined done)⟩
  · rw [functionSpace, imports, List.filter_append, List.map_append, List.append_assoc]
  · have isFunction : ImportEntry.isFunction
        ⟨options.module, options.field, .function m.nextTypeIndex⟩ = true := rfl
    rw [functionSpace, others, List.filter_append, List.filter_cons_of_pos isFunction,
      List.map_append, List.append_assoc]
    rfl
  · rw [List.length_map, List.countP_eq_length_filter]

/-- Without the calls of the metering function, a metered body is the renumbered one. -/
theorem withoutCalls_of_metersBody
    (few : (m.imports?.getD []).countP (·.isFunction) + 1 < UInt32.size) {signature : Signature}
    {body other : FunctionBody} {layout : List ChargedRun}
    (meters : (m.meterOf tariff options).MetersBody signature body other layout) :
    withoutCalls m.importedFunctions other.code = (body.renumber m.importedFunctions).code := by
  have whole : (layout.map (·.run)).flatten = (body.renumber m.importedFunctions).code :=
    meters.segments.flatten
  rw [meters.code, ← whole]
  exact withoutCalls_code meters.charges fun charged listed instruction inside =>
    callTarget?_ne_of_mem few (meters.segments.mem (List.mem_map_of_mem listed) inside)

/-- Indices of one function in a module and in what becomes of it by metering. -/
def KeepsIndex (tariff : Tariff) (options : MeteringOptions) (m metered : Module) :
    UInt32 → UInt32 → Prop :=
  SameFunction (m.becomes tariff options) m.importedFunctions m metered

/-- What metering does to the functions of a module and to what refers to them. There is one
function more, and each reference is to the function that it was to. In code these are the
direct calls but for those that were put in. -/
structure KeepsFunctions (tariff : Tariff) (options : MeteringOptions) (m metered : Module) :
    Prop where
  added : ∃ typeIndex : UInt32,
    metered.functionSpace[m.importedFunctions.toNat]? =
        some (.imported ⟨options.module, options.field, .function typeIndex⟩) ∧
      (metered.entries Section.signatures?)[typeIndex.toNat]? =
        some ⟨.func, [options.register.type], []⟩
  kept : List.Forall₂ (m.becomes tariff options) m.functionSpace
    (metered.functionSpace.eraseIdx m.importedFunctions.toNat)
  exports : List.Forall₂ (ExportEntry.Agrees (KeepsIndex tariff options m metered))
    (m.entries Section.exports?) (metered.entries Section.exports?)
  elements : List.Forall₂ (ElementEntry.Agrees (KeepsIndex tariff options m metered))
    (m.entries Section.elements?) (metered.entries Section.elements?)
  starts : List.Forall₂ (KeepsIndex tariff options m metered) (m.entries Section.starts?)
    (metered.entries Section.starts?)
  calls : List.Forall₂ (fun body other : FunctionBody =>
      List.Forall₂ (Instruction.Agrees (KeepsIndex tariff options m metered)) body.code
        (withoutCalls m.importedFunctions other.code))
    (m.entries Section.bodies?) (metered.entries Section.bodies?)

/-- **Function references keep their meaning.** However many sections with signatures and
imports there are, the metering function is added at the index from which on functions are
renumbered, so that every reference that led to a function leads to what has become of it. -/
theorem meter_keepsFunctions (fewFunctions : m.functionSpace.length + 1 < UInt32.size)
    (fewTypes : (m.entries Section.signatures?).length + 1 < UInt32.size)
    (done : m.meter tariff options = .ok (metered, gas)) :
    m.KeepsFunctions tariff options metered := by
  obtain ⟨before, others, others', old, new, counted, front, back⟩ := functionSpace_of_meter done
  have few : (m.imports?.getD []).countP (·.isFunction) + 1 < UInt32.size := by
    rw [old, List.length_append, counted] at fewFunctions
    omega
  have place : m.importedFunctions.toNat = before.length := by
    rw [importedFunctions, UInt32.toNat_ofNat_of_lt' (Nat.lt_of_succ_lt few), counted]
  have kept : List.Forall₂ (m.becomes tariff options) m.functionSpace
      (metered.functionSpace.eraseIdx m.importedFunctions.toNat) := by
    rw [old, new, place, List.eraseIdx_append_of_length_le (Nat.le_refl _), Nat.sub_self,
      List.eraseIdx_cons_zero]
    exact List.rel_append front back
  have moved := sameFunction_shiftIndex fewFunctions kept
  refine ⟨⟨m.nextTypeIndex, ?_, ?_⟩, kept, ?_, ?_, ?_, ?_⟩
  · rw [new, place, List.getElem?_append_right (Nat.le_refl _), Nat.sub_self,
      List.getElem?_cons_zero]
  · obtain ⟨rest, types, more⟩ := signatures_of_meter done
    rw [types, List.length_append] at fewTypes
    have last : m.nextTypeIndex.toNat = (m.signatures?.getD []).length :=
      UInt32.toNat_ofNat_of_lt' (by omega)
    rw [more, last, List.getElem?_append_right (Nat.le_refl _), Nat.sub_self,
      List.getElem?_cons_zero]
    rfl
  · rw [entries_of_meter done (fun _ => rfl) (fun _ => rfl) (fun _ => rfl)
      fun content => content.exports?_renumber _ _]
    exact forall₂_map (ExportEntry.agrees_renumber moved) _
  · rw [entries_of_meter done (fun _ => rfl) (fun _ => rfl) (fun _ => rfl)
      fun content => content.elements?_renumber _ _]
    exact forall₂_map (ElementEntry.agrees_renumber moved) _
  · rw [entries_of_meter done (fun _ => rfl) (fun _ => rfl) (fun _ => rfl)
      fun content => content.starts?_renumber _ _]
    exact forall₂_map moved _
  · rw [entries_bodies (meterable_of_meter done).code, bodies_of_meter done]
    refine forall₂_iff_getElem?.mpr ⟨(length_bodies_of_meter done).symm, fun i body there => ?_⟩
    obtain ⟨_, _, other, _, _, _, found, meters⟩ := metersBody_of_meter done there
    refine ⟨other, found, ?_⟩
    rw [withoutCalls_of_metersBody few meters]
    exact (FunctionBody.agrees_renumber moved body).code

/-- A module with two sections of signatures and two of imports, and with references of each
kind to imported functions from both of them and to its own function. -/
def scattered : Module where
  sections := [.types [⟨.func, [], []⟩], .imports [⟨"env", "f", .function 0⟩],
    .types [⟨.func, [.i32], []⟩],
    .imports [⟨"env", "memory", .memory ⟨1, none⟩⟩, ⟨"env", "g", .function 1⟩],
    .functions [0], .exports [⟨"main", .function, 2⟩, ⟨"memory", .memory, 0⟩, ⟨"g", .function, 1⟩],
    .start 2, .elements [⟨0, ⟨"const", some .i32, some (.int32 0)⟩, [1, 2, 0]⟩],
    .code [⟨[], [⟨"call", none, some (.index 1)⟩, ⟨"call", none, some (.index 2)⟩,
      ⟨"call", none, some (.index 0)⟩, ⟨"end", none, none⟩]⟩]]

/-- What becomes of `scattered` by `unitTariff`. -/
def scatteredMetered : Module where
  sections := [.types [⟨.func, [], []⟩, ⟨.func, [.i64], []⟩],
    .imports [⟨"env", "f", .function 0⟩, ⟨"metering", "usegas", .function 1⟩],
    .types [⟨.func, [.i32], []⟩],
    .imports [⟨"env", "memory", .memory ⟨1, none⟩⟩, ⟨"env", "g", .function 1⟩],
    .functions [0], .exports [⟨"main", .function, 3⟩, ⟨"memory", .memory, 0⟩, ⟨"g", .function, 2⟩],
    .start 3, .elements [⟨0, ⟨"const", some .i32, some (.int32 0)⟩, [2, 3, 0]⟩],
    .code [⟨[], [⟨"const", some .i64, some (.int64 6)⟩, ⟨"call", none, some (.index 1)⟩,
      ⟨"call", none, some (.index 2)⟩, ⟨"call", none, some (.index 3)⟩,
      ⟨"call", none, some (.index 0)⟩, ⟨"end", none, none⟩]⟩]]

/-- A module with its functions scattered over repeated sections. -/
theorem meter_keepsFunctions_scattered :
    scattered.functionSpace.length + 1 < UInt32.size ∧
      (scattered.entries Section.signatures?).length + 1 < UInt32.size ∧
      scattered.meter unitTariff {} = .ok (scatteredMetered, .cap 6) ∧
      scattered.KeepsFunctions unitTariff {} scatteredMetered := by
  have fewFunctions : scattered.functionSpace.length + 1 < UInt32.size := by decide
  have fewTypes : (scattered.entries Section.signatures?).length + 1 < UInt32.size := by decide
  have done : scattered.meter unitTariff {} = .ok (scatteredMetered, .cap 6) := by decide +kernel
  exact ⟨fewFunctions, fewTypes, done, meter_keepsFunctions fewFunctions fewTypes done⟩

end Module

end WasmGas

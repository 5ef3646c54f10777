import WasmGas.Proofs.Metering.References

/-! # What renumbering cannot tell apart

No function gets the index of the added one, and two indices become one only if they are the last
two there are, for the greatest index stays where it is (`shiftIndex_eq_iff`). As renumbering
changes nothing else, and as the name that it enters can be found again (`leaveName_enterName`), two
modules become equal exactly if they are the same but for function indices of these two values
(`Module.renumber_collides`).
-/

namespace WasmGas

/-! ## Indices -/

/-- Indices that are the same, or that both are among the last two there are. -/
def Collide (one other : UInt32) : Prop :=
  one = other ∨ (UInt32.size ≤ one.toNat + 2 ∧ UInt32.size ≤ other.toNat + 2)

/-- What is before the insertion stays before it, and nothing else gets there. -/
theorem shiftIndex_lt_iff {insertion index : UInt32} :
    shiftIndex insertion index < insertion ↔ index < insertion := by
  by_cases below : index < insertion
  · rw [shiftIndex_of_lt below]
  · have above := UInt32.not_lt.mp below
    have moved := toNat_shiftIndex_of_le above
    have bounded := index.toNat_lt_size
    rw [UInt32.le_iff_toNat_le] at above
    rw [UInt32.lt_iff_toNat_lt, UInt32.lt_iff_toNat_lt, moved]
    omega

/-- Two indices meet only at the cap. -/
theorem shiftIndex_eq_iff {insertion : UInt32} (small : insertion.toNat + 1 < UInt32.size)
    {one other : UInt32} :
    shiftIndex insertion one = shiftIndex insertion other ↔ Collide one other := by
  have oneBounded := one.toNat_lt_size
  have otherBounded := other.toNat_lt_size
  rw [Collide, ← UInt32.toNat_inj, ← UInt32.toNat_inj]
  rw [toNat_shiftIndex, toNat_shiftIndex]
  by_cases oneBelow : one.toNat < insertion.toNat <;>
    by_cases otherBelow : other.toNat < insertion.toNat <;>
    simp only [oneBelow, otherBelow, ↓reduceIte] <;> omega

/-! ## Modules that differ in function indices -/

section Alike

variable (same : UInt32 → UInt32 → Prop)

/-- Debug names of one kind, with as many entries. -/
inductive NameSubsection.Alike : NameSubsection → NameSubsection → Prop
  | moduleName (name : String) : Alike (.moduleName name) (.moduleName name)
  | functionNames {one other : List NameEntry} :
      List.Forall₂ (NameEntry.Agrees same) one other →
        Alike (.functionNames one) (.functionNames other)
  | localNames {one other : List LocalNames} :
      List.Forall₂ (LocalNames.Agrees same) one other → Alike (.localNames one) (.localNames other)
  | unknown (kind : UInt8) (payload : List UInt8) :
      Alike (.unknown kind payload) (.unknown kind payload)

/-- Sections of one kind, with as many entries. -/
inductive Section.Alike : Section → Section → Prop
  | exports {one other : List ExportEntry} :
      List.Forall₂ (ExportEntry.Agrees same) one other → Alike (.exports one) (.exports other)
  | elements {one other : List ElementEntry} :
      List.Forall₂ (ElementEntry.Agrees same) one other → Alike (.elements one) (.elements other)
  | start {one other : UInt32} : same one other → Alike (.start one) (.start other)
  | code {one other : List FunctionBody} :
      List.Forall₂ (FunctionBody.Agrees same) one other → Alike (.code one) (.code other)
  | names (title : String) {one other : List NameSubsection} :
      List.Forall₂ (NameSubsection.Alike same) one other →
        Alike (.custom title (.names one)) (.custom title (.names other))
  | raw (title : String) (bytes : List UInt8) :
      Alike (.custom title (.raw bytes)) (.custom title (.raw bytes))
  | other {content : Section} :
      content.kind ∈ [.types, .imports, .functions, .tables, .memories, .globals, .data,
        .dataCount] → Alike content content

/-- Modules that are the same, section by section, but for related function indices. -/
structure Module.Alike (one other : Module) : Prop where
  preamble : other.preamble = one.preamble
  sections : List.Forall₂ (Section.Alike same) one.sections other.sections

end Alike

/-! ## What becomes equal -/

theorem ExportEntry.kind_renumber (insertion : UInt32) (entry : ExportEntry) :
    (entry.renumber insertion).kind = entry.kind := by
  unfold renumber
  split <;> rfl

/-! ### The name that is entered -/

/-- Enters the name of the function at `insertion` before the first entry that is not below it. -/
def enterName (insertion : UInt32) (name : String) (entries : List NameEntry) : List NameEntry :=
  entries.takeWhile (·.index < insertion) ++
    ⟨insertion, name⟩ :: entries.dropWhile (·.index < insertion)

/-- Takes out the first entry that is not below `insertion`. -/
def leaveName (insertion : UInt32) (entries : List NameEntry) : List NameEntry :=
  entries.takeWhile (·.index < insertion) ++ (entries.dropWhile (·.index < insertion)).tail

/-- Whatever the entries and their order are, the one that was entered can be told. -/
theorem leaveName_enterName (insertion : UInt32) (name : String) (entries : List NameEntry) :
    leaveName insertion (enterName insertion name entries) = entries := by
  have below : ∀ entry ∈ entries.takeWhile (·.index < insertion),
      decide (entry.index < insertion) = true := fun _ => List.mem_takeWhile_imp
  rw [leaveName, enterName, List.takeWhile_append_of_pos below, List.dropWhile_append_of_pos below]
  simp only [List.takeWhile_cons, List.dropWhile_cons, UInt32.lt_irrefl, decide_false,
    Bool.false_eq_true, ↓reduceIte, List.append_nil, List.tail_cons,
    List.takeWhile_append_dropWhile]

/-- All entries can be renumbered before the name is entered. -/
theorem renumberNames_eq_enterName (insertion : UInt32) (name : String)
    (entries : List NameEntry) :
    renumberNames insertion name entries =
      enterName insertion name (entries.map (·.renumber insertion)) := by
  have same : (fun entry : NameEntry => decide (entry.index < insertion)) ∘
      NameEntry.renumber insertion = fun entry => decide (entry.index < insertion) :=
    funext fun entry => decide_eq_decide.mpr shiftIndex_lt_iff
  rw [enterName, List.takeWhile_map, List.dropWhile_map, same, map_renumber_takeWhile,
    renumberNames]

section Renumber

variable {same : UInt32 → UInt32 → Prop} {insertion : UInt32}
  (shifted : ∀ {one other}, shiftIndex insertion one = shiftIndex insertion other ↔ same one other)

include shifted

/-- Exports become the same if their functions meet. -/
theorem ExportEntry.renumber_eq_iff {one other : ExportEntry} :
    one.renumber insertion = other.renumber insertion ↔ one.Agrees same other := by
  constructor
  · intro equal
    have kinds : one.kind = other.kind := by
      rw [← one.kind_renumber insertion, equal, other.kind_renumber insertion]
    obtain ⟨field, kind, index⟩ := one
    obtain ⟨field', _, index'⟩ := other
    subst kinds
    by_cases function : kind = .function
    · rw [renumber, if_pos function, renumber, if_pos function] at equal
      obtain ⟨rfl, _, indices⟩ := ExportEntry.mk.inj equal
      subst function
      exact .function (shifted.mp indices)
    · rw [renumber, if_neg function, renumber, if_neg function] at equal
      rw [equal]
      exact .other function
  · intro agrees
    cases agrees with
    | function goes => rw [renumber, if_pos rfl, renumber, if_pos rfl, shifted.mpr goes]
    | other _ => rfl

theorem ElementEntry.renumber_eq_iff {one other : ElementEntry} :
    one.renumber insertion = other.renumber insertion ↔ one.Agrees same other := by
  constructor
  · intro equal
    simp only [renumber, ElementEntry.mk.injEq, map_eq_map_iff_forall₂ shifted] at equal
    exact ⟨equal.1.symm, equal.2.1.symm, equal.2.2⟩
  · intro ⟨table, offset, functions⟩
    simp only [renumber, table, offset, (map_eq_map_iff_forall₂ shifted).mpr functions]

theorem Instruction.renumber_eq_iff {one other : Instruction} :
    one.renumber insertion = other.renumber insertion ↔ one.Agrees same other := by
  constructor
  · intro equal
    have targets := congrArg Instruction.callTarget? equal
    rw [callTarget?_renumber, callTarget?_renumber] at targets
    cases called : one.callTarget? with
    | none =>
        rw [called, Option.map_none, eq_comm, Option.map_eq_none_iff] at targets
        rw [renumber, called, renumber, targets] at equal
        subst equal
        refine .other fun named target held => ?_
        rw [callTarget?_eq_some_iff.mpr ⟨named, held⟩] at called
        cases called
    | some target =>
        rw [called, Option.map_some, eq_comm, Option.map_eq_some_iff] at targets
        obtain ⟨target', called', shift⟩ := targets
        rw [renumber, called, renumber, called'] at equal
        obtain ⟨named, held⟩ := callTarget?_eq_some_iff.mp called
        obtain ⟨named', held'⟩ := callTarget?_eq_some_iff.mp called'
        obtain ⟨name, qualifier, immediate⟩ := one
        obtain ⟨name', qualifier', immediate'⟩ := other
        obtain ⟨_, rfl, _⟩ := Instruction.mk.inj equal
        cases named
        cases named'
        cases held
        cases held'
        exact .call (shifted.mp shift.symm)
  · intro agrees
    cases agrees with
    | @call qualifier old new goes =>
        change Instruction.mk "call" qualifier (some (.index (shiftIndex insertion old))) =
          ⟨"call", qualifier, some (.index (shiftIndex insertion new))⟩
        rw [shifted.mpr goes]
    | other _ => rfl

theorem FunctionBody.renumber_eq_iff {one other : FunctionBody} :
    one.renumber insertion = other.renumber insertion ↔ one.Agrees same other := by
  have code : one.code.map (·.renumber insertion) = other.code.map (·.renumber insertion) ↔
      List.Forall₂ (Instruction.Agrees same) one.code other.code :=
    map_eq_map_iff_forall₂ (Instruction.renumber_eq_iff shifted)
  constructor
  · intro equal
    obtain ⟨locals, equal⟩ := FunctionBody.mk.inj equal
    exact ⟨locals.symm, code.mp equal⟩
  · intro ⟨locals, agree⟩
    rw [renumber, renumber, locals, code.mpr agree]

theorem NameEntry.renumber_eq_iff {one other : NameEntry} :
    one.renumber insertion = other.renumber insertion ↔ one.Agrees same other := by
  constructor
  · intro equal
    obtain ⟨index, name⟩ := NameEntry.mk.inj equal
    exact ⟨shifted.mp index, name.symm⟩
  · intro ⟨index, name⟩
    rw [renumber, renumber, name, shifted.mpr index]

theorem LocalNames.renumber_eq_iff {one other : LocalNames} :
    one.renumber insertion = other.renumber insertion ↔ one.Agrees same other := by
  constructor
  · intro equal
    obtain ⟨function, names⟩ := LocalNames.mk.inj equal
    exact ⟨shifted.mp function, names.symm⟩
  · intro ⟨function, names⟩
    rw [renumber, renumber, names, shifted.mpr function]

/-- Lists of function names become the same if their entries do. -/
theorem renumberNames_eq_iff {name : String} {one other : List NameEntry} :
    renumberNames insertion name one = renumberNames insertion name other ↔
      List.Forall₂ (NameEntry.Agrees same) one other := by
  have entered : Function.Injective (enterName insertion name) :=
    Function.LeftInverse.injective (leaveName_enterName insertion name)
  rw [renumberNames_eq_enterName, renumberNames_eq_enterName, entered.eq_iff,
    map_eq_map_iff_forall₂ (NameEntry.renumber_eq_iff shifted)]

theorem NameSubsection.renumber_eq_iff {name : String} {one other : NameSubsection} :
    one.renumber insertion name = other.renumber insertion name ↔ one.Alike same other := by
  have groups {one other : List LocalNames} :
      one.map (·.renumber insertion) = other.map (·.renumber insertion) ↔
        List.Forall₂ (LocalNames.Agrees same) one other :=
    map_eq_map_iff_forall₂ (LocalNames.renumber_eq_iff shifted)
  constructor
  · intro equal
    cases one with
    | moduleName title =>
        cases other <;> cases equal
        exact .moduleName title
    | functionNames entries =>
        cases other with
        | functionNames others =>
            exact .functionNames ((renumberNames_eq_iff shifted).mp (functionNames.inj equal))
        | _ => cases equal
    | localNames entries =>
        cases other with
        | localNames others => exact .localNames (groups.mp (localNames.inj equal))
        | _ => cases equal
    | unknown kind payload =>
        cases other <;> cases equal
        exact .unknown kind payload
  · intro alike
    cases alike with
    | moduleName _ => rfl
    | functionNames agree => exact congrArg functionNames ((renumberNames_eq_iff shifted).mpr agree)
    | localNames agree => exact congrArg localNames (groups.mpr agree)
    | unknown _ _ => rfl

theorem Section.renumber_eq_iff {name : String} {one other : Section} :
    one.renumber insertion name = other.renumber insertion name ↔ one.Alike same other := by
  have exported {one other : List ExportEntry} :
      one.map (·.renumber insertion) = other.map (·.renumber insertion) ↔
        List.Forall₂ (ExportEntry.Agrees same) one other :=
    map_eq_map_iff_forall₂ (ExportEntry.renumber_eq_iff shifted)
  have listed {one other : List ElementEntry} :
      one.map (·.renumber insertion) = other.map (·.renumber insertion) ↔
        List.Forall₂ (ElementEntry.Agrees same) one other :=
    map_eq_map_iff_forall₂ (ElementEntry.renumber_eq_iff shifted)
  have coded {one other : List FunctionBody} :
      one.map (·.renumber insertion) = other.map (·.renumber insertion) ↔
        List.Forall₂ (FunctionBody.Agrees same) one other :=
    map_eq_map_iff_forall₂ (FunctionBody.renumber_eq_iff shifted)
  have named {one other : List NameSubsection} :
      one.map (·.renumber insertion name) = other.map (·.renumber insertion name) ↔
        List.Forall₂ (NameSubsection.Alike same) one other :=
    map_eq_map_iff_forall₂ (NameSubsection.renumber_eq_iff shifted)
  constructor
  · intro equal
    have kinds : one.kind = other.kind := by
      rw [← one.kind_renumber insertion name, equal, other.kind_renumber insertion name]
    cases one <;> cases other <;> cases kinds
    case custom.custom.refl title payload title' payload' =>
      cases payload <;> cases payload'
      case raw.raw bytes _ =>
        cases equal
        exact .raw title bytes
      case names.names _ _ =>
        obtain ⟨rfl, subsections⟩ := custom.inj equal
        exact .names title (named.mp (CustomPayload.names.inj subsections))
      all_goals cases equal
    case exports.exports.refl _ _ => exact .exports (exported.mp (exports.inj equal))
    case elements.elements.refl _ _ => exact .elements (listed.mp (elements.inj equal))
    case start.start.refl _ _ => exact .start (shifted.mp (start.inj equal))
    case code.code.refl _ _ => exact .code (coded.mp (code.inj equal))
    all_goals
      cases equal
      exact .other (of_decide_eq_true rfl)
  · intro alike
    cases alike with
    | exports agree => exact congrArg exports (exported.mpr agree)
    | elements agree => exact congrArg elements (listed.mpr agree)
    | start goes => exact congrArg start (shifted.mpr goes)
    | code agree => exact congrArg code (coded.mpr agree)
    | names title agree =>
        exact congrArg (custom title) (congrArg CustomPayload.names (named.mpr agree))
    | raw _ _ => rfl
    | other _ => rfl

/-- Modules become the same if the functions in them meet. -/
theorem Module.renumber_eq_iff {name : String} {one other : Module} :
    one.renumber insertion name = other.renumber insertion name ↔ one.Alike same other := by
  have sections : one.sections.map (·.renumber insertion name) =
      other.sections.map (·.renumber insertion name) ↔
        List.Forall₂ (Section.Alike same) one.sections other.sections :=
    map_eq_map_iff_forall₂ (Section.renumber_eq_iff shifted)
  constructor
  · intro equal
    obtain ⟨preamble, equal⟩ := Module.mk.inj equal
    exact ⟨preamble.symm, sections.mp equal⟩
  · intro ⟨preamble, alike⟩
    rw [renumber, renumber, preamble, sections.mpr alike]

end Renumber

namespace Module

/-- **What renumbering confuses.** Two modules become equal exactly if they are the same but for
function indices that are both among the last two there are. Other indices of functions never
become one, and none becomes that of the added function. -/
theorem renumber_collides {insertion : UInt32} (small : insertion.toNat + 1 < UInt32.size)
    (name : String) :
    (∀ one other : Module,
      one.renumber insertion name = other.renumber insertion name ↔ one.Alike Collide other) ∧
    (∀ one other, shiftIndex insertion one = shiftIndex insertion other ↔ Collide one other) ∧
    (∀ index, shiftIndex insertion index ≠ insertion) :=
  ⟨fun _ _ => renumber_eq_iff (shiftIndex_eq_iff small), fun _ _ => shiftIndex_eq_iff small,
    shiftIndex_ne small⟩

/-- A module whose table is filled with the functions of the last two indices. -/
def lastTwo : Module where
  sections := [.elements [⟨0, ⟨"const", some .i32, some (.int32 0)⟩, [0xfffffffe, 0xffffffff]⟩]]

/-- A module whose table is filled with the function of the last index, twice. -/
def lastTwice : Module where
  sections := [.elements [⟨0, ⟨"const", some .i32, some (.int32 0)⟩, [0xffffffff, 0xffffffff]⟩]]

/-- The last two indices become one. -/
theorem renumber_collides_last :
    (0 : UInt32).toNat + 1 < UInt32.size ∧ lastTwo.Alike Collide lastTwice ∧
      ¬ lastTwo.Alike Collide {} ∧ shiftIndex 0 0xfffffffe ≠ 0 := by
  have small : (0 : UInt32).toNat + 1 < UInt32.size := by decide
  obtain ⟨modules, _, apart⟩ := renumber_collides small "metering.usegas"
  exact ⟨small, (modules _ _).mp (by decide), mt (modules _ _).mpr (by decide), apart _⟩

/-- Two different modules become equal, for two different functions of one of them become one. -/
theorem renumber_lastTwo :
    lastTwo ≠ lastTwice ∧ lastTwo.renumber 0 "metering.usegas" = lastTwice ∧
      lastTwice.renumber 0 "metering.usegas" = lastTwice := by
  decide

end Module

end WasmGas

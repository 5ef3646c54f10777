import WasmGas.Proofs.Metering.Collisions
import WasmGas.Proofs.Metering.FunctionSpace

/-! # Debug names

The names of functions are looked up by index, in the order in which they are listed; they may be
listed in any order, and more than once for one index. Renumbering looks for the first one that has
to move, enters the name of the added function there and moves what stands behind it. All the same
the names of every function are found under its new index, and the added function has its name
alone (`NamesFollow`): what stands before that place has a lower index, and what stands behind it
and has a lower index stays. The names of locals go with their function (`Module.renumber_names`).
-/

namespace WasmGas

/-- The names that are listed for an index, in the order in which they are listed. -/
def namesOf (entries : List NameEntry) (index : UInt32) : List String :=
  (entries.filter (·.index = index)).map (·.name)

theorem namesOf_append (entries others : List NameEntry) (index : UInt32) :
    namesOf (entries ++ others) index = namesOf entries index ++ namesOf others index := by
  rw [namesOf, List.filter_append, List.map_append, namesOf, namesOf]

/-- An index that is not listed has no name. -/
theorem namesOf_eq_nil {entries : List NameEntry} {index : UInt32}
    (absent : ∀ entry ∈ entries, entry.index ≠ index) : namesOf entries index = [] := by
  rw [namesOf, List.filter_eq_nil_iff.mpr fun entry listed =>
    mt of_decide_eq_true (absent entry listed), List.map_nil]

/-! ## The name that is entered -/

theorem namesOf_cons_self (index : UInt32) (name : String) (entries : List NameEntry) :
    namesOf (⟨index, name⟩ :: entries) index = name :: namesOf entries index := by
  simp only [namesOf, List.filter_cons, decide_true, ↓reduceIte, List.map_cons]

theorem namesOf_cons_of_ne {index other : UInt32} (name : String) (entries : List NameEntry)
    (apart : other ≠ index) : namesOf (⟨other, name⟩ :: entries) index = namesOf entries index := by
  simp only [namesOf, List.filter_cons, apart, decide_false, Bool.false_eq_true, ↓reduceIte]

/-- The name that was entered is the only one of its index. -/
theorem namesOf_enterName_self {insertion : UInt32} (name : String) {entries : List NameEntry}
    (absent : ∀ entry ∈ entries, entry.index ≠ insertion) :
    namesOf (enterName insertion name entries) insertion = [name] := by
  have before : namesOf (entries.takeWhile (·.index < insertion)) insertion = [] :=
    namesOf_eq_nil fun entry listed => absent entry ((List.takeWhile_sublist _).subset listed)
  have behind : namesOf (entries.dropWhile (·.index < insertion)) insertion = [] :=
    namesOf_eq_nil fun entry listed => absent entry ((List.dropWhile_sublist _).subset listed)
  rw [enterName, namesOf_append, namesOf_cons_self, before, behind, List.nil_append]

/-- Entering a name leaves the names of all other indices. -/
theorem namesOf_enterName_of_ne {insertion index : UInt32} (name : String)
    (entries : List NameEntry) (apart : insertion ≠ index) :
    namesOf (enterName insertion name entries) index = namesOf entries index := by
  rw [enterName, namesOf_append, namesOf_cons_of_ne name _ apart, ← namesOf_append,
    List.takeWhile_append_dropWhile]

/-! ## The names that move -/

/-- Names are found again if no other index goes where theirs does. -/
theorem namesOf_map_renumber {insertion index : UInt32} {entries : List NameEntry}
    (apart : ∀ entry ∈ entries, shiftIndex insertion entry.index = shiftIndex insertion index →
      entry.index = index) :
    namesOf (entries.map (·.renumber insertion)) (shiftIndex insertion index) =
      namesOf entries index := by
  have kept : (entries.filter fun entry =>
      (entry.renumber insertion).index = shiftIndex insertion index) =
        entries.filter (·.index = index) := by
    refine List.filter_congr fun entry listed => decide_eq_decide.mpr ⟨apart entry listed, ?_⟩
    exact congrArg (shiftIndex insertion)
  rw [namesOf, List.filter_map, List.map_map]
  exact congrArg (List.map (·.name)) kept

/-- Only the last two indices can meet, and one of them is not among those below the last. -/
theorem eq_of_shiftIndex_eq {insertion one other : UInt32}
    (small : insertion.toNat + 1 < UInt32.size) (oneSmall : one.toNat + 1 < UInt32.size)
    (otherSmall : other.toNat + 1 < UInt32.size)
    (same : shiftIndex insertion one = shiftIndex insertion other) : one = other := by
  rcases (shiftIndex_eq_iff small).mp same with equal | ⟨oneLast, otherLast⟩
  · exact equal
  · apply UInt32.toNat_inj.mp
    omega

/-! ## Order -/

/-- Indices stay in their order. -/
theorem shiftIndex_mono (insertion : UInt32) {one other : UInt32} (le : one ≤ other) :
    shiftIndex insertion one ≤ shiftIndex insertion other := by
  have bounded := one.toNat_lt_size
  rw [UInt32.le_iff_toNat_le] at le ⊢
  rw [toNat_shiftIndex, toNat_shiftIndex]
  by_cases oneBelow : one.toNat < insertion.toNat <;>
    by_cases otherBelow : other.toNat < insertion.toNat <;>
    simp only [oneBelow, otherBelow, ↓reduceIte] <;> omega

/-- Whether names are listed by rising indices, of which several may be the same. -/
def InIndexOrder (entries : List NameEntry) : Prop := entries.Pairwise (·.index ≤ ·.index)

/-- Entries stay in the order of their indices. -/
theorem InIndexOrder.map_renumber (insertion : UInt32) {entries : List NameEntry}
    (ordered : InIndexOrder entries) : InIndexOrder (entries.map (·.renumber insertion)) :=
  List.pairwise_map.mpr (ordered.imp (shiftIndex_mono insertion))

/-- What comes behind the first entry past the insertion is past it, too. -/
theorem InIndexOrder.le_of_mem_dropWhile {insertion : UInt32} {entries : List NameEntry}
    (ordered : InIndexOrder entries) {entry : NameEntry}
    (listed : entry ∈ entries.dropWhile (·.index < insertion)) : insertion ≤ entry.index := by
  induction entries with
  | nil => cases listed
  | cons head tail behind =>
      obtain ⟨least, rest⟩ := List.pairwise_cons.mp ordered
      by_cases below : head.index < insertion
      · simp only [List.dropWhile_cons, below, decide_true, ↓reduceIte] at listed
        exact behind rest listed
      · simp only [List.dropWhile_cons, below, decide_false, Bool.false_eq_true, ↓reduceIte]
          at listed
        have above := UInt32.not_lt.mp below
        rcases List.mem_cons.mp listed with rfl | further
        · exact above
        · exact UInt32.le_trans above (least entry further)

/-- A name is entered at its place in the order. -/
theorem InIndexOrder.enterName (insertion : UInt32) (name : String) {entries : List NameEntry}
    (ordered : InIndexOrder entries) : InIndexOrder (enterName insertion name entries) := by
  have below {entry : NameEntry} (listed : entry ∈ entries.takeWhile (·.index < insertion)) :
      entry.index ≤ insertion := by
    have less := List.mem_takeWhile_imp listed
    exact UInt32.le_of_lt (of_decide_eq_true less)
  refine List.pairwise_append.mpr ⟨ordered.sublist (List.takeWhile_sublist _), ?_, ?_⟩
  · exact List.pairwise_cons.mpr ⟨fun entry => ordered.le_of_mem_dropWhile,
      ordered.sublist (List.dropWhile_sublist _)⟩
  · intro entry before other listed
    rcases List.mem_cons.mp listed with rfl | behind
    · exact below before
    · exact UInt32.le_trans (below before) (ordered.le_of_mem_dropWhile behind)

/-! ## Names after renumbering -/

/-- The names of functions, before and after a function of some name was added at `insertion`. -/
structure NamesFollow (insertion : UInt32) (name : String) (old new : List NameEntry) : Prop where
  follow : (∀ entry ∈ old, entry.index.toNat + 1 < UInt32.size) →
    ∀ index moved : UInt32, index.toNat + 1 < UInt32.size → Moves insertion index moved →
      namesOf new moved = namesOf old index
  added : namesOf new insertion = [name]
  order : InIndexOrder old → InIndexOrder new

/-- Names go along with their functions, and the metering function gets its own. -/
theorem namesFollow_renumberNames {insertion : UInt32}
    (small : insertion.toNat + 1 < UInt32.size) (name : String) (entries : List NameEntry) :
    NamesFollow insertion name entries (renumberNames insertion name entries) where
  follow := by
    intro allSmall index moved indexSmall moves
    rw [renumberNames_eq_enterName, moves_iff.mp moves,
      namesOf_enterName_of_ne name _ (shiftIndex_ne small index).symm]
    exact namesOf_map_renumber fun entry listed =>
      eq_of_shiftIndex_eq small (allSmall entry listed) indexSmall
  added := by
    rw [renumberNames_eq_enterName]
    refine namesOf_enterName_self name fun entry listed => ?_
    obtain ⟨old, _, rfl⟩ := List.mem_map.mp listed
    exact shiftIndex_ne small old.index
  order := by
    intro ordered
    rw [renumberNames_eq_enterName]
    exact (ordered.map_renumber insertion).enterName insertion name

/-! ## The names in a module -/

def NameSubsection.functionNames? : NameSubsection → Option (List NameEntry)
  | functionNames entries => some entries
  | _ => none

def NameSubsection.localNames? : NameSubsection → Option (List LocalNames)
  | localNames groups => some groups
  | _ => none

namespace Section

/-- What some view finds in the debug names of a section. -/
def debugNames? {α : Type} (view : NameSubsection → Option α) : Section → Option (List α)
  | custom _ (.names subsections) => some (subsections.filterMap view)
  | _ => none

/-- What the debug names say of functions is renumbered, and nothing else of them. -/
theorem debugNames?_renumber {α : Type} {view : NameSubsection → Option α} {change : α → α}
    {insertion : UInt32} {name : String}
    (viewed : ∀ content : NameSubsection,
      view (content.renumber insertion name) = (view content).map change)
    (content : Section) : (content.renumber insertion name).debugNames? view =
      (content.debugNames? view).map (·.map change) := by
  cases content with
  | custom title payload =>
      cases payload with
      | raw _ => rfl
      | names subsections =>
          change some ((subsections.map (·.renumber insertion name)).filterMap view) =
            some ((subsections.filterMap view).map change)
          have same : view ∘ NameSubsection.renumber insertion name =
              fun content => (view content).map change := funext viewed
          rw [List.filterMap_map, same, List.map_filterMap]
  | _ => rfl

end Section

namespace Module

/-- **Names follow their functions.** In every list of names of functions, in whatever order and
however often for one index, the names of a function are found under its new index as they were
under the old one, the added function has the name that it was given and no other, and a list by
rising indices stays one. The names of locals stay as they are, for the new index of their
function. -/
theorem renumber_names {insertion : UInt32} (small : insertion.toNat + 1 < UInt32.size)
    (name : String) (m : Module) :
    List.Forall₂ (NamesFollow insertion name)
        (m.entries (Section.debugNames? NameSubsection.functionNames?))
        ((m.renumber insertion name).entries (Section.debugNames? NameSubsection.functionNames?)) ∧
      List.Forall₂ (List.Forall₂ (LocalNames.Agrees (Moves insertion)))
        (m.entries (Section.debugNames? NameSubsection.localNames?))
        ((m.renumber insertion name).entries
          (Section.debugNames? NameSubsection.localNames?)) := by
  have functions (content : NameSubsection) : (content.renumber insertion name).functionNames? =
      content.functionNames?.map (renumberNames insertion name) := by
    cases content <;> rfl
  have locals (content : NameSubsection) : (content.renumber insertion name).localNames? =
      content.localNames?.map (·.map (·.renumber insertion)) := by
    cases content <;> rfl
  constructor
  · rw [entries, entries, renumber, entriesOf_map (Section.debugNames?_renumber functions)]
    exact forall₂_map (fun old => namesFollow_renumberNames small name old) _
  · rw [entries, entries, renumber, entriesOf_map (Section.debugNames?_renumber locals)]
    exact forall₂_map (fun groups =>
      forall₂_map (LocalNames.agrees_renumber (moves_shiftIndex insertion)) groups) _

/-- Names of three functions, in no order and two of them named twice. -/
def scatteredNames : List NameEntry := [⟨0, "f"⟩, ⟨2, "h"⟩, ⟨0, "first"⟩, ⟨1, "g"⟩, ⟨2, "last"⟩]

/-- A module with these names. -/
def scatteredlyNamed : Module where
  sections := [.custom "name" (.names [.functionNames scatteredNames,
    .localNames [⟨1, [⟨0, "x"⟩]⟩]])]

/-- A function is added in front of the last two. -/
theorem renumber_names_scattered :
    (1 : UInt32).toNat + 1 < UInt32.size ∧
      (scatteredlyNamed.renumber 1 "metering.usegas").entries
        (Section.debugNames? NameSubsection.functionNames?) =
          [[⟨0, "f"⟩, ⟨1, "metering.usegas"⟩, ⟨3, "h"⟩, ⟨0, "first"⟩, ⟨2, "g"⟩, ⟨3, "last"⟩]] ∧
      NamesFollow 1 "metering.usegas" scatteredNames
        [⟨0, "f"⟩, ⟨1, "metering.usegas"⟩, ⟨3, "h"⟩, ⟨0, "first"⟩, ⟨2, "g"⟩, ⟨3, "last"⟩] ∧
      namesOf scatteredNames 2 = ["h", "last"] ∧ LocalNames.Agrees (Moves 1)
        ⟨1, [⟨0, "x"⟩]⟩ ⟨2, [⟨0, "x"⟩]⟩ := by
  have small : (1 : UInt32).toNat + 1 < UInt32.size := by decide
  obtain ⟨functions, locals⟩ := renumber_names small "metering.usegas" scatteredlyNamed
  have groups := (List.forall₂_cons.mp locals).1
  exact ⟨small, by decide, (List.forall₂_cons.mp functions).1, by decide,
    (List.forall₂_cons.mp groups).1⟩

end Module

end WasmGas

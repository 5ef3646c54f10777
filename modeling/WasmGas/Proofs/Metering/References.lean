import Mathlib.Data.List.Forall2
import Mathlib.Data.List.TakeWhile
import WasmGas.Proofs.Metering.Import

/-! # What refers to functions

Exports, elements, the start, direct calls and debug names hold indices of functions. Modules are
compared up to these indices (`Module.Agrees`): index and index are related in a given way, and
all else is the same, but for an entry that is added to the function names. Renumbering keeps a
module up to the move of each index (`Module.renumber_agrees`), so it misses no place that holds
an index and touches no other.
-/

namespace WasmGas

/-! ## Moves -/

/-- Where the index of a function goes when one is added at `insertion`: from there on it
goes up by one, as far as there are indices. -/
def Moves (insertion old new : UInt32) : Prop :=
  if old < insertion then new = old else new.toNat = min (old.toNat + 1) (UInt32.size - 1)

/-- What is before the insertion stays where it is. -/
theorem shiftIndex_of_lt {insertion index : UInt32} (below : index < insertion) :
    shiftIndex insertion index = index :=
  if_pos below

/-- What is behind the insertion moves by one, up to the cap. -/
theorem toNat_shiftIndex_of_le {insertion index : UInt32} (above : insertion ≤ index) :
    (shiftIndex insertion index).toNat = min (index.toNat + 1) (UInt32.size - 1) := by
  have bounded := index.toNat_lt_size
  rw [shiftIndex, if_neg (UInt32.not_lt.mpr above)]
  by_cases room : index.toNat + 1 < UInt32.size
  · rw [if_pos room, UInt32.toNat_add, UInt32.toNat_one, Nat.mod_eq_of_lt room]
    omega
  · rw [if_neg room]
    omega

/-- Where an index goes. -/
theorem toNat_shiftIndex (insertion index : UInt32) :
    (shiftIndex insertion index).toNat =
      if index.toNat < insertion.toNat then index.toNat
      else min (index.toNat + 1) (UInt32.size - 1) := by
  by_cases below : index < insertion
  · rw [shiftIndex_of_lt below, if_pos (UInt32.lt_iff_toNat_lt.mp below)]
  · rw [toNat_shiftIndex_of_le (UInt32.not_lt.mp below),
      if_neg (mt UInt32.lt_iff_toNat_lt.mpr below)]

/-- An index goes where it is said to go. -/
theorem moves_shiftIndex (insertion index : UInt32) :
    Moves insertion index (shiftIndex insertion index) := by
  by_cases below : index < insertion
  · rw [Moves, if_pos below]
    exact shiftIndex_of_lt below
  · rw [Moves, if_neg below]
    exact toNat_shiftIndex_of_le (UInt32.not_lt.mp below)

/-- An index goes to one place only. -/
theorem moves_iff {insertion old new : UInt32} :
    Moves insertion old new ↔ new = shiftIndex insertion old := by
  constructor
  · intro moves
    have shifted := moves_shiftIndex insertion old
    unfold Moves at moves shifted
    by_cases below : old < insertion
    · rw [if_pos below] at moves shifted
      rw [moves, shifted]
    · rw [if_neg below] at moves shifted
      exact UInt32.toNat_inj.mp (moves.trans shifted.symm)
  · rintro rfl
    exact moves_shiftIndex insertion old

/-! ## Agreement up to function indices -/

section Agreement

variable (goes : UInt32 → UInt32 → Prop)

/-- Exports under one name. Only the index of a function may change. -/
inductive ExportEntry.Agrees : ExportEntry → ExportEntry → Prop
  | function {field : String} {old new : UInt32} :
      goes old new → Agrees ⟨field, .function, old⟩ ⟨field, .function, new⟩
  | other {entry : ExportEntry} : entry.kind ≠ .function → Agrees entry entry

/-- Elements for one place of one table, with as many functions. -/
structure ElementEntry.Agrees (old new : ElementEntry) : Prop where
  table : new.table = old.table
  offset : new.offset = old.offset
  functions : List.Forall₂ goes old.functions new.functions

/-- Direct calls, or one and the same instruction that is none. -/
inductive Instruction.Agrees : Instruction → Instruction → Prop
  | call {qualifier : Option Qualifier} {old new : UInt32} :
      goes old new →
        Agrees ⟨"call", qualifier, some (.index old)⟩ ⟨"call", qualifier, some (.index new)⟩
  | other {instruction : Instruction} :
      (instruction.name = "call" → ∀ target, instruction.immediate ≠ some (.index target)) →
        Agrees instruction instruction

/-- Bodies with the same locals and, up to direct calls, the same code. -/
structure FunctionBody.Agrees (old new : FunctionBody) : Prop where
  locals : new.locals = old.locals
  code : List.Forall₂ (Instruction.Agrees goes) old.code new.code

/-- One name for a function. -/
structure NameEntry.Agrees (old new : NameEntry) : Prop where
  index : goes old.index new.index
  name : new.name = old.name

/-- The same names for the locals of a function. -/
structure LocalNames.Agrees (old new : LocalNames) : Prop where
  function : goes old.function new.function
  names : new.names = old.names

/-- Debug names of one kind. Among the names of functions there is one entry more. -/
inductive NameSubsection.Agrees (added : NameEntry) : NameSubsection → NameSubsection → Prop
  | moduleName (name : String) : Agrees added (.moduleName name) (.moduleName name)
  | functionNames {old before after : List NameEntry} :
      List.Forall₂ (NameEntry.Agrees goes) old (before ++ after) →
        Agrees added (.functionNames old) (.functionNames (before ++ added :: after))
  | localNames {old new : List LocalNames} :
      List.Forall₂ (LocalNames.Agrees goes) old new →
        Agrees added (.localNames old) (.localNames new)
  | unknown (kind : UInt8) (payload : List UInt8) :
      Agrees added (.unknown kind payload) (.unknown kind payload)

/-- Sections of one kind. Those that hold no index of a function are one and the same. -/
inductive Section.Agrees (added : NameEntry) : Section → Section → Prop
  | exports {old new : List ExportEntry} :
      List.Forall₂ (ExportEntry.Agrees goes) old new → Agrees added (.exports old) (.exports new)
  | elements {old new : List ElementEntry} :
      List.Forall₂ (ElementEntry.Agrees goes) old new →
        Agrees added (.elements old) (.elements new)
  | start {old new : UInt32} : goes old new → Agrees added (.start old) (.start new)
  | code {old new : List FunctionBody} :
      List.Forall₂ (FunctionBody.Agrees goes) old new → Agrees added (.code old) (.code new)
  | names (title : String) {old new : List NameSubsection} :
      List.Forall₂ (NameSubsection.Agrees goes added) old new →
        Agrees added (.custom title (.names old)) (.custom title (.names new))
  | raw (title : String) (bytes : List UInt8) :
      Agrees added (.custom title (.raw bytes)) (.custom title (.raw bytes))
  | other {content : Section} :
      content.kind ∈ [.types, .imports, .functions, .tables, .memories, .globals, .data,
        .dataCount] → Agrees added content content

/-- Modules that have, section by section, the same content up to function indices. -/
structure Module.Agrees (added : NameEntry) (m other : Module) : Prop where
  preamble : other.preamble = m.preamble
  sections : List.Forall₂ (Section.Agrees goes added) m.sections other.sections

end Agreement

theorem forall₂_map {α : Type} {related : α → α → Prop} {change : α → α}
    (each : ∀ a, related a (change a)) (entries : List α) :
    List.Forall₂ related entries (entries.map change) :=
  List.forall₂_map_right_iff.mpr (List.forall₂_same.mpr fun a _ => each a)

/-- Lists become equal entry by entry. -/
theorem map_eq_map_iff_forall₂ {α β : Type} {change : α → β} {related : α → α → Prop}
    (each : ∀ {a b}, change a = change b ↔ related a b) {one other : List α} :
    one.map change = other.map change ↔ List.Forall₂ related one other := by
  have same : (fun a b => change a = change b) = related :=
    funext fun a => funext fun b => propext each
  rw [← List.forall₂_eq_eq_eq, List.forall₂_map_left_iff, List.forall₂_map_right_iff, same]

/-! ## Renumbering keeps all else -/

/-- Names before the first one that moves stay, for their indices are below the new one. -/
theorem map_renumber_takeWhile (insertion : UInt32) (entries : List NameEntry) :
    (entries.takeWhile (·.index < insertion)).map (·.renumber insertion) =
      entries.takeWhile (·.index < insertion) := by
  refine (List.map_congr_left fun entry listed => ?_).trans (List.map_id _)
  have below := List.mem_takeWhile_imp listed
  rw [NameEntry.renumber, shiftIndex_of_lt (of_decide_eq_true below), id]

section Renumber

variable {goes : UInt32 → UInt32 → Prop} {insertion : UInt32}
  (moved : ∀ index, goes index (shiftIndex insertion index))

include moved

/-- An export goes along with its function. -/
theorem ExportEntry.agrees_renumber (entry : ExportEntry) :
    entry.Agrees goes (entry.renumber insertion) := by
  obtain ⟨field, kind, index⟩ := entry
  by_cases function : kind = .function
  · subst function
    exact .function (moved index)
  · rw [renumber, if_neg function]
    exact .other function

theorem ElementEntry.agrees_renumber (entry : ElementEntry) :
    entry.Agrees goes (entry.renumber insertion) :=
  ⟨rfl, rfl, forall₂_map moved entry.functions⟩

theorem Instruction.agrees_renumber (instruction : Instruction) :
    instruction.Agrees goes (instruction.renumber insertion) := by
  obtain ⟨name, qualifier, immediate⟩ := instruction
  by_cases direct : name = "call" ∧ ∃ target, immediate = some (.index target)
  · obtain ⟨rfl, target, rfl⟩ := direct
    exact .call (moved target)
  · have silent : callTarget? ⟨name, qualifier, immediate⟩ = none := by
      refine Option.eq_none_iff_forall_ne_some.mpr fun target called => ?_
      obtain ⟨named, held⟩ := callTarget?_eq_some_iff.mp called
      exact direct ⟨named, target, held⟩
    rw [renumber, silent]
    exact .other fun named target held => direct ⟨named, target, held⟩

theorem FunctionBody.agrees_renumber (body : FunctionBody) :
    body.Agrees goes (body.renumber insertion) :=
  ⟨rfl, forall₂_map (Instruction.agrees_renumber moved) body.code⟩

theorem NameEntry.agrees_renumber (entry : NameEntry) :
    entry.Agrees goes (entry.renumber insertion) :=
  ⟨moved entry.index, rfl⟩

theorem LocalNames.agrees_renumber (group : LocalNames) :
    group.Agrees goes (group.renumber insertion) :=
  ⟨moved group.function, rfl⟩

/-- Function names go along, and the metering function gets its own. -/
theorem agrees_renumberNames (name : String) (entries : List NameEntry) :
    NameSubsection.Agrees goes ⟨insertion, name⟩ (.functionNames entries)
      (.functionNames (renumberNames insertion name entries)) := by
  refine .functionNames ?_
  rw [← map_renumber_takeWhile, ← List.map_append, List.takeWhile_append_dropWhile]
  exact forall₂_map (NameEntry.agrees_renumber moved) entries

theorem NameSubsection.agrees_renumber (name : String) (content : NameSubsection) :
    content.Agrees goes ⟨insertion, name⟩ (content.renumber insertion name) := by
  cases content with
  | moduleName title => exact .moduleName title
  | functionNames entries => exact agrees_renumberNames moved name entries
  | localNames groups =>
      exact .localNames (forall₂_map (LocalNames.agrees_renumber moved) groups)
  | unknown kind payload => exact .unknown kind payload

theorem Section.agrees_renumber (name : String) (content : Section) :
    content.Agrees goes ⟨insertion, name⟩ (content.renumber insertion name) := by
  cases content with
  | custom title payload =>
      cases payload with
      | raw bytes => exact .raw title bytes
      | names subsections =>
          exact .names title (forall₂_map (NameSubsection.agrees_renumber moved name) subsections)
  | exports entries => exact .exports (forall₂_map (ExportEntry.agrees_renumber moved) entries)
  | elements entries => exact .elements (forall₂_map (ElementEntry.agrees_renumber moved) entries)
  | start index => exact .start (moved index)
  | code bodies => exact .code (forall₂_map (FunctionBody.agrees_renumber moved) bodies)
  | types | imports | functions | tables | memories | globals | data | dataCount =>
      exact .other (of_decide_eq_true rfl)

end Renumber

/-- **Renumbering moves every function index and changes nothing else.** Section by section, each
index of a function moves, the function names gain the added one, and all else is as it was. -/
theorem Module.renumber_agrees (m : Module) (insertion : UInt32) (name : String) :
    m.Agrees (Moves insertion) ⟨insertion, name⟩ (m.renumber insertion name) :=
  ⟨rfl, forall₂_map (Section.agrees_renumber (moves_shiftIndex insertion) name) m.sections⟩

end WasmGas

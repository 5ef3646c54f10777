import Mathlib.Data.List.Basic
import WasmGas.Module.Basic

/-! # The entries of all sections

Indices count the entries of all sections of a kind, one section after the other
(`Module.entries`), while a look-up by kind answers for the first such section. The two agree where
a kind comes at most once (`Module.entries_of_single`).
-/

namespace WasmGas

variable {α : Type}

namespace Section

def exports? : Section → Option (List ExportEntry)
  | exports entries => some entries
  | _ => none

def elements? : Section → Option (List ElementEntry)
  | elements entries => some entries
  | _ => none

/-- The function that a start section names, as a list of one entry. -/
def starts? : Section → Option (List UInt32)
  | start index => some [index]
  | _ => none

end Section

/-- The entries that some view finds in sections. -/
def entriesOf (view : Section → Option (List α)) (sections : List Section) : List α :=
  sections.flatMap fun content => (view content).getD []

/-- The entries that some view finds in all sections of a module. -/
def Module.entries (m : Module) (view : Section → Option (List α)) : List α :=
  entriesOf view m.sections

variable {view : Section → Option (List α)}

theorem entriesOf_cons (head : Section) (tail : List Section) :
    entriesOf view (head :: tail) = (view head).getD [] ++ entriesOf view tail :=
  List.flatMap_cons

theorem entriesOf_append (before after : List Section) :
    entriesOf view (before ++ after) = entriesOf view before ++ entriesOf view after :=
  List.flatMap_append

/-- Sections of other kinds have no entries. -/
theorem entriesOf_eq_nil {sections : List Section}
    (silent : ∀ content ∈ sections, view content = none) : entriesOf view sections = [] :=
  List.flatMap_eq_nil_iff.mpr fun content listed => by rw [silent content listed, Option.getD_none]

/-- Where there is one section of a kind, its entries are all there are. -/
theorem Module.entries_of_single {m : Module} {kind : SectionKind}
    (ofKind : ∀ {content entries}, view content = some entries → content.kind = kind)
    (single : m.count kind ≤ 1) : m.entries view = (m.sections.findSome? view).getD [] := by
  obtain ⟨preamble, sections⟩ := m
  change entriesOf view sections = (sections.findSome? view).getD []
  change sections.countP (·.kind == kind) ≤ 1 at single
  induction sections with
  | nil => rfl
  | cons head tail agree =>
      rw [List.countP_cons] at single
      rw [entriesOf_cons, List.findSome?_cons]
      cases viewed : view head with
      | none =>
          rw [Option.getD_none, List.nil_append]
          exact agree (Nat.le_trans (Nat.le_add_right _ _) single)
      | some entries =>
          have counted : (head.kind == kind) = true := beq_iff_eq.mpr (ofKind viewed)
          rw [if_pos counted] at single
          have others := List.countP_eq_zero.mp (Nat.le_zero.mp (Nat.le_of_succ_le_succ single))
          have silent : ∀ content ∈ tail, view content = none := by
            intro content listed
            cases held : view content with
            | none => rfl
            | some _ => exact absurd (beq_iff_eq.mpr (ofKind held)) (others content listed)
          rw [entriesOf_eq_nil silent, List.append_nil, Option.getD_some]

namespace Section

variable {content : Section}

/-- Function signatures are in sections of functions. -/
theorem kind_of_typeIndices? {typeIndices : List UInt32}
    (held : content.typeIndices? = some typeIndices) : content.kind = .functions := by
  cases content <;> first | rfl | cases held

theorem kind_of_bodies? {bodies : List FunctionBody} (held : content.bodies? = some bodies) :
    content.kind = .code := by
  cases content <;> first | rfl | cases held

end Section

namespace Module

variable {m : Module}

/-- A single section of functions has all of their signatures. -/
theorem entries_typeIndices (single : m.count .functions ≤ 1) :
    m.entries Section.typeIndices? = m.typeIndices?.getD [] :=
  entries_of_single Section.kind_of_typeIndices? single

theorem entries_bodies (single : m.count .code ≤ 1) :
    m.entries Section.bodies? = m.bodies?.getD [] :=
  entries_of_single Section.kind_of_bodies? single

/-- What is found out about the bodies of the only code section. -/
theorem entriesOf_map_bodies {find : List FunctionBody → List α} (none : find [] = [])
    (single : m.count .code ≤ 1) :
    entriesOf (fun content => content.bodies?.map find) m.sections =
      find (m.bodies?.getD []) := by
  have ofKind {content : Section} {entries : List α}
      (held : content.bodies?.map find = some entries) : content.kind = .code := by
    obtain ⟨bodies, inside, _⟩ := Option.map_eq_some_iff.mp held
    exact Section.kind_of_bodies? inside
  have found : m.sections.findSome? (fun content => content.bodies?.map find) =
      m.bodies?.map find := List.map_findSome?.symm
  refine (entries_of_single ofKind single).trans ?_
  rw [found]
  cases m.bodies? with
  | none => exact none.symm
  | some bodies => rfl

end Module

end WasmGas

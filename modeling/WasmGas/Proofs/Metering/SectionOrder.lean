import Mathlib.Data.List.Sort
import WasmGas.Proofs.Metering.FunctionSpace

/-! # The order of sections

The kinds of sections have ranks, only custom sections have none. A module is in order if the
ranks of its sections never fall (`Module.InOrder`), and in strict order if they always rise. A
section that is inserted goes in front of the first rank that is higher
(`Section.ranksOf_insertInto`) and leaves the other sections where they are. So an ordered module
stays ordered, whatever is inserted, and in strict order it is afterwards just if no rank comes
twice. Metering needs a section with signatures and one with imports. Where there is one the kinds
of the sections stay the same, and where there is none it is inserted (`SuppliesKind`). So metering
keeps a strict order too (`Module.order_kept`).
-/

namespace WasmGas

/-- The ranks of some sections. Custom sections have none. -/
def ranksOf (sections : List Section) : List Nat := sections.filterMap (·.kind.rank?)

/-- A section may be followed by one of its own rank. -/
def Module.InOrder (m : Module) : Prop := (ranksOf m.sections).Pairwise (· ≤ ·)

def Module.InStrictOrder (m : Module) : Prop := (ranksOf m.sections).Pairwise (· < ·)

instance (m : Module) : Decidable m.InOrder :=
  inferInstanceAs (Decidable ((ranksOf m.sections).Pairwise (· ≤ ·)))

instance (m : Module) : Decidable m.InStrictOrder :=
  inferInstanceAs (Decidable ((ranksOf m.sections).Pairwise (· < ·)))

/-- Inserts one section after the other. -/
def Module.insertAll (m : Module) (added : List Section) : Module := added.foldl Module.insert m

/-! ## Ranks -/

theorem SectionKind.mem_all (kind : SectionKind) : kind ∈ SectionKind.all := by
  cases kind <;> decide

/-- Two kinds do not share a rank. -/
theorem SectionKind.eq_of_rank? {one other : SectionKind} {rank : Nat}
    (first : one.rank? = some rank) (second : other.rank? = some rank) : one = other := by
  have distinct : ∀ one ∈ SectionKind.all, ∀ other ∈ SectionKind.all,
      one.rank? = other.rank? → one.rank? = none ∨ one = other := by decide
  rcases distinct one one.mem_all other other.mem_all (first.trans second.symm) with none | same
  · rw [none] at first
    cases first
  · exact same

/-- Only the kinds of sections matter to their ranks. -/
theorem ranksOf_eq_filterMap (sections : List Section) :
    ranksOf sections = (sections.map (·.kind)).filterMap SectionKind.rank? := by
  rw [List.filterMap_map]
  rfl

/-- A section with a rank comes first in the ranks. -/
theorem ranksOf_cons_of_rank {head : Section} {rank : Nat} (ranked : head.kind.rank? = some rank)
    (tail : List Section) : ranksOf (head :: tail) = rank :: ranksOf tail :=
  List.filterMap_cons_some ranked

/-- A custom section has no rank. -/
theorem ranksOf_cons_of_custom {head : Section} (custom : head.kind.rank? = none)
    (tail : List Section) : ranksOf (head :: tail) = ranksOf tail :=
  List.filterMap_cons_none custom

theorem ranksOf_append (before after : List Section) :
    ranksOf (before ++ after) = ranksOf before ++ ranksOf after :=
  List.filterMap_append

/-- A rank is there if a section of its kind is. -/
theorem mem_ranksOf_iff {kind : SectionKind} {rank : Nat} (ranked : kind.rank? = some rank)
    {sections : List Section} :
    rank ∈ ranksOf sections ↔ ∃ content ∈ sections, content.kind = kind := by
  rw [ranksOf, List.mem_filterMap]
  refine exists_congr fun content => and_congr_right fun _ => ⟨?_, ?_⟩
  · exact fun same => SectionKind.eq_of_rank? same ranked
  · rintro rfl
    exact ranked

/-- A module has a kind if one of its sections is of it. -/
theorem Module.has_eq_true_iff {m : Module} {kind : SectionKind} :
    m.has kind = true ↔ ∃ content ∈ m.sections, content.kind = kind := by
  simp only [Module.has, List.any_eq_true, beq_iff_eq]

/-- Strict order is order without repetitions. -/
theorem Module.inStrictOrder_iff {m : Module} :
    m.InStrictOrder ↔ m.InOrder ∧ (ranksOf m.sections).Nodup := by
  rw [InStrictOrder, InOrder, List.Nodup, ← List.pairwise_and_iff]
  exact List.Pairwise.iff fun _ _ => Nat.lt_iff_le_and_ne

/-! ## Inserting -/

/-- What is put in front of the first greater number keeps an order. -/
theorem pairwise_orderedInsert_lt {ranks : List Nat} (ordered : ranks.Pairwise (· ≤ ·))
    (rank : Nat) : (ranks.orderedInsert (· < ·) rank).Pairwise (· ≤ ·) := by
  induction ranks with
  | nil => exact List.pairwise_singleton _ _
  | cons head tail rest =>
      obtain ⟨least, further⟩ := List.pairwise_cons.mp ordered
      by_cases above : rank < head
      · rw [List.orderedInsert_cons, if_pos above]
        refine List.pairwise_cons.mpr ⟨List.forall_mem_cons.mpr ⟨by omega, ?_⟩, ordered⟩
        exact fun other listed => by have := least other listed; omega
      · rw [List.orderedInsert_cons, if_neg above]
        refine List.pairwise_cons.mpr ⟨fun other listed => ?_, rest further⟩
        rcases (List.mem_orderedInsert _).mp listed with rfl | listed
        · omega
        · exact least other listed

namespace Section

variable {added : Section}

/-- A section that is put in is one more. -/
theorem insertInto_perm (added : Section) (sections : List Section) :
    (added.insertInto sections).Perm (added :: sections) := by
  obtain ⟨before, after, rfl, inserted⟩ := added.insertInto_eq sections
  rw [inserted]
  exact List.perm_middle

/-- The other sections stay in their order. -/
theorem sublist_insertInto (added : Section) (sections : List Section) :
    sections.Sublist (added.insertInto sections) := by
  obtain ⟨before, after, rfl, inserted⟩ := added.insertInto_eq sections
  rw [inserted]
  exact (List.sublist_cons_self added after).append_left before

/-- A custom section changes no ranks. -/
theorem ranksOf_insertInto_of_custom (custom : added.kind.rank? = none) (sections : List Section) :
    ranksOf (added.insertInto sections) = ranksOf sections := by
  obtain ⟨before, after, rfl, inserted⟩ := added.insertInto_eq sections
  rw [inserted, ranksOf_append, ranksOf_cons_of_custom custom, ranksOf_append]

/-- A section ranks above a kind if it has a rank and that is greater. -/
theorem ranksAbove_iff {later : Section} {kind : SectionKind} {rank : Nat}
    (ranked : kind.rank? = some rank) :
    later.ranksAbove kind = true ↔ ∃ higher, later.kind.rank? = some higher ∧ rank < higher := by
  rw [ranksAbove, ranked]
  cases later.kind.rank? with
  | none => exact iff_of_false nofun nofun
  | some higher => simp only [decide_eq_true_eq, Option.some_inj, exists_eq_left']

/-- Custom sections are passed over, and a rank comes in front of the first that is higher. -/
theorem ranksOf_insertInto {rank : Nat} (ranked : added.kind.rank? = some rank)
    (sections : List Section) :
    ranksOf (added.insertInto sections) = (ranksOf sections).orderedInsert (· < ·) rank := by
  induction sections with
  | nil => exact ranksOf_cons_of_rank ranked []
  | cons head tail rest =>
      by_cases above : head.ranksAbove added.kind = true
      · obtain ⟨higher, held, less⟩ := (ranksAbove_iff ranked).mp above
        rw [insertInto, if_pos above, ranksOf_cons_of_rank ranked, ranksOf_cons_of_rank held,
          List.orderedInsert_cons, if_pos less]
      · rw [insertInto, if_neg above]
        cases held : head.kind.rank? with
        | none => rw [ranksOf_cons_of_custom held, ranksOf_cons_of_custom held, rest]
        | some lower =>
            have stays : ¬ rank < lower :=
              fun less => above ((ranksAbove_iff ranked).mpr ⟨lower, held, less⟩)
            rw [ranksOf_cons_of_rank held, ranksOf_cons_of_rank held, List.orderedInsert_cons,
              if_neg stays, rest]

end Section

namespace Module

variable {m : Module}

/-- Where a section was inserted it can be taken out again. -/
theorem eraseIdx_insert (m : Module) (added : Section) :
    ∃ place, (m.insert added).sections[place]? = some added ∧
      (m.insert added).sections.eraseIdx place = m.sections := by
  obtain ⟨before, after, whole, inserted⟩ := added.insertInto_eq m.sections
  refine ⟨before.length, ?_, ?_⟩
  · rw [insert, inserted, List.getElem?_append_right le_rfl, Nat.sub_self, List.getElem?_cons_zero]
  · rw [insert, inserted, List.eraseIdx_append_of_length_le le_rfl, Nat.sub_self,
      List.eraseIdx_cons_zero, whole]

/-- A section is put in at its place, so that the order is kept. -/
theorem InOrder.insert (ordered : m.InOrder) (added : Section) : (m.insert added).InOrder := by
  cases ranked : added.kind.rank? with
  | none =>
      rw [InOrder, Module.insert, Section.ranksOf_insertInto_of_custom ranked]
      exact ordered
  | some rank =>
      rw [InOrder, Module.insert, Section.ranksOf_insertInto ranked]
      exact pairwise_orderedInsert_lt ordered rank

/-- Sections are put in one after another, each at its place. -/
theorem InOrder.insertAll (ordered : m.InOrder) (added : List Section) :
    (m.insertAll added).InOrder := by
  induction added generalizing m with
  | nil => exact ordered
  | cons head tail rest => exact rest (ordered.insert head)

/-- However many sections are put in, the others stay in their order. -/
theorem sublist_insertAll (m : Module) (added : List Section) :
    m.sections.Sublist (m.insertAll added).sections := by
  induction added generalizing m with
  | nil => exact List.Sublist.refl _
  | cons head tail rest => exact (head.sublist_insertInto m.sections).trans (rest (m.insert head))

/-- No section is lost and none is there twice. -/
theorem insertAll_perm (m : Module) (added : List Section) :
    (m.insertAll added).sections.Perm (added ++ m.sections) := by
  induction added generalizing m with
  | nil => exact List.Perm.refl _
  | cons head tail rest =>
      have first : (tail ++ (m.insert head).sections).Perm (tail ++ head :: m.sections) :=
        (head.insertInto_perm m.sections).append_left tail
      exact ((rest (m.insert head)).trans first).trans List.perm_middle

/-- In strict order are just the modules in which no rank comes twice, also if sections were
inserted. -/
theorem InOrder.inStrictOrder_insertAll_iff (ordered : m.InOrder) {added : List Section} :
    (m.insertAll added).InStrictOrder ↔ (ranksOf (added ++ m.sections)).Nodup := by
  rw [inStrictOrder_iff, and_iff_right (ordered.insertAll added)]
  exact ((m.insertAll_perm added).filterMap _).nodup_iff

/-- One section of a new kind does not spoil a strict order, nor does a custom one. -/
theorem InStrictOrder.insert (strict : m.InStrictOrder) {added : Section}
    (new : added.kind = .custom ∨ m.has added.kind = false) :
    (m.insert added).InStrictOrder := by
  obtain ⟨ordered, distinct⟩ := inStrictOrder_iff.mp strict
  refine (@InOrder.inStrictOrder_insertAll_iff m ordered [added]).mpr ?_
  cases ranked : added.kind.rank? with
  | none =>
      rw [List.singleton_append, ranksOf_cons_of_custom ranked]
      exact distinct
  | some rank =>
      rw [List.singleton_append, ranksOf_cons_of_rank ranked]
      refine List.nodup_cons.mpr ⟨fun listed => ?_, distinct⟩
      rcases new with custom | new
      · rw [custom] at ranked
        cases ranked
      · have had := has_eq_true_iff.mpr ((mem_ranksOf_iff ranked).mp listed)
        rw [new] at had
        cases had

end Module

/-! ## Metering -/

/-- What has a section of a kind, in place of sections that perhaps have none. -/
inductive SuppliesKind (kind : SectionKind) (sections : List Section) : List Section → Prop
  | had {changed : List Section} : (∃ content ∈ sections, content.kind = kind) →
      changed.map (·.kind) = sections.map (·.kind) → SuppliesKind kind sections changed
  | lacked {added : Section} : (∀ content ∈ sections, content.kind ≠ kind) → added.kind = kind →
      SuppliesKind kind sections (added.insertInto sections)

namespace SuppliesKind

variable {α : Type} {kind : SectionKind} {view : Section → Option (List α)}
  {make : List α → Section}

/-- An entry is added to a section that is there, or comes in one of its own. -/
theorem of_update (made : ∀ {old entries}, view old = some entries → old = make entries)
    (viewed : ∀ {content}, view content = none → content.kind ≠ kind)
    (ofKind : ∀ entries, (make entries).kind = kind) (entry : α) (sections : List Section) :
    SuppliesKind kind sections
      (match updateFirst? (fun s => (view s).map fun entries => make (entries ++ [entry])) sections
        with
      | some changed => changed
      | none => (make [entry]).insertInto sections) := by
  cases updated : updateFirst? (fun s => (view s).map fun entries => make (entries ++ [entry]))
      sections with
  | some changed =>
      obtain ⟨before, old, new, after, rfl, _, changes, rfl⟩ := updateFirst?_eq_some updated
      obtain ⟨entries, held, rfl⟩ := Option.map_eq_some_iff.mp changes
      have same : old.kind = kind := by rw [made held, ofKind]
      refine .had ⟨old, List.mem_append_right _ List.mem_cons_self, same⟩ ?_
      simp only [List.map_append, List.map_cons, same, ofKind]
  | none =>
      refine .lacked (fun content inside => viewed ?_) (ofKind _)
      exact Option.map_eq_none_iff.mp (updateFirst?_eq_none updated content inside)

variable {m changed : Module}

/-- A section that is only made where none of its kind is keeps the order strict. -/
theorem inStrictOrder (supplies : SuppliesKind kind m.sections changed.sections)
    (strict : m.InStrictOrder) : changed.InStrictOrder := by
  obtain ⟨preamble, sections⟩ := changed
  cases supplies with
  | had _ same =>
      rw [Module.InStrictOrder, ranksOf_eq_filterMap, same, ← ranksOf_eq_filterMap]
      exact strict
  | lacked silent ofKind =>
      refine Module.InStrictOrder.insert strict (Or.inr (eq_false_of_ne_true fun had => ?_))
      obtain ⟨content, inside, same⟩ := Module.has_eq_true_iff.mp had
      exact silent content inside (same.trans ofKind)

/-- One kind can be there that was not. -/
theorem has_iff (supplies : SuppliesKind kind m.sections changed.sections) (other : SectionKind) :
    changed.has other = true ↔ m.has other = true ∨ other = kind := by
  obtain ⟨preamble, sections⟩ := changed
  rw [Module.has_eq_true_iff, Module.has_eq_true_iff, ← List.mem_map, ← List.mem_map]
  cases supplies with
  | had present same =>
      dsimp only
      rw [same]
      exact ⟨Or.inl, Or.rec id (by rintro rfl; exact List.mem_map.mpr present)⟩
  | @lacked added silent ofKind =>
      have kinds := (added.insertInto_perm m.sections).map (·.kind)
      rw [kinds.mem_iff, List.map_cons, List.mem_cons, ofKind, or_comm]

end SuppliesKind

namespace Module

variable {m metered : Module} {tariff : Tariff} {options : MeteringOptions} {gas : Gas}

/-- A signature can bring in a section of types. -/
theorem addSignature_supplies (m : Module) (signature : Signature) :
    SuppliesKind .types m.sections (m.addSignature signature).sections := by
  have viewed {content : Section} (silent : content.signatures? = none) :
      content.kind ≠ .types := by
    intro same
    cases content with
    | types entries => cases silent
    | _ => cases same
  rw [sections_addSignature]
  exact SuppliesKind.of_update Section.eq_types_of_signatures? viewed (fun _ => rfl) signature _

theorem addImport_supplies (m : Module) (entry : ImportEntry) :
    SuppliesKind .imports m.sections (m.addImport entry).sections := by
  have viewed {content : Section} (silent : content.imports? = none) :
      content.kind ≠ .imports := by
    intro same
    cases content with
    | imports entries => cases silent
    | _ => cases same
  rw [sections_addImport]
  exact SuppliesKind.of_update Section.eq_imports_of_imports? viewed (fun _ => rfl) entry _

/-- Neither renumbering nor charging changes the kinds of sections. -/
theorem map_kind_of_meter (done : m.meter tariff options = .ok (metered, gas)) :
    ∃ entry, metered.sections.map (·.kind) =
      ((m.addSignature options.signature).addImport entry).sections.map (·.kind) := by
  obtain ⟨entries, sections, _, charged, rfl⟩ := Meter.meterModule_eq_ok (meter_eq_ok done).2
  have untouched : ((fun content : Section => content.kind) ∘ fun content : Section =>
      content.renumber m.importedFunctions options.functionName) = fun content => content.kind :=
    funext fun content => content.kind_renumber _ _
  refine ⟨⟨options.module, options.field, .function m.nextTypeIndex⟩, ?_⟩
  rw [Meter.MetersSection.map_kind (Meter.meterSections_forall₂ charged)]
  change List.map _ (List.map _ _) = _
  rw [List.map_map, untouched]

/-- Metering keeps the order strict. -/
theorem InStrictOrder.meter (strict : m.InStrictOrder)
    (done : m.meter tariff options = .ok (metered, gas)) : metered.InStrictOrder := by
  obtain ⟨entry, kinds⟩ := map_kind_of_meter done
  have typed := (m.addSignature_supplies options.signature).inStrictOrder strict
  have imported := (addImport_supplies _ entry).inStrictOrder typed
  rw [InStrictOrder, ranksOf_eq_filterMap, kinds, ← ranksOf_eq_filterMap]
  exact imported

/-- Metering can bring in types and imports, and nothing else. -/
theorem has_of_meter (done : m.meter tariff options = .ok (metered, gas)) (kind : SectionKind) :
    metered.has kind = true ↔ m.has kind = true ∨ kind = .types ∨ kind = .imports := by
  obtain ⟨entry, kinds⟩ := map_kind_of_meter done
  have typed := (m.addSignature_supplies options.signature).has_iff kind
  have imported := (addImport_supplies (m.addSignature options.signature) entry).has_iff kind
  rw [← or_assoc, ← typed, ← imported, has_eq_true_iff, ← List.mem_map, kinds, List.mem_map,
    ← has_eq_true_iff]

/-- **Sections stay in order.** A section that is inserted into a module in order can be taken out
again, and the module with it is in order; in strict order it stays if the kind is new or custom. So
it is with any number of insertions. A module in strict order is metered to one in strict order,
which has a section with signatures and one with imports beside the kinds that there were. -/
theorem order_kept (m : Module) (ordered : m.InOrder) :
    (∀ added : Section, (m.insert added).InOrder ∧
      (∃ place, (m.insert added).sections[place]? = some added ∧
        (m.insert added).sections.eraseIdx place = m.sections) ∧
      (m.InStrictOrder → added.kind = .custom ∨ m.has added.kind = false →
        (m.insert added).InStrictOrder)) ∧
    (∀ added : List Section, (m.insertAll added).InOrder ∧
      m.sections.Sublist (m.insertAll added).sections ∧
      (m.insertAll added).sections.Perm (added ++ m.sections) ∧
      ((m.insertAll added).InStrictOrder ↔ (ranksOf (added ++ m.sections)).Nodup)) ∧
    (m.InStrictOrder → ∀ tariff options metered gas,
      m.meter tariff options = .ok (metered, gas) → metered.InStrictOrder ∧
        ∀ kind, metered.has kind = true ↔ m.has kind = true ∨ kind = .types ∨ kind = .imports) := by
  refine ⟨fun added => ?_, fun added => ?_, fun strict tariff options metered gas done => ?_⟩
  · exact ⟨ordered.insert added, m.eraseIdx_insert added, fun strict new => strict.insert new⟩
  · exact ⟨ordered.insertAll added, m.sublist_insertAll added, m.insertAll_perm added,
      ordered.inStrictOrder_insertAll_iff⟩
  · exact ⟨strict.meter done, has_of_meter done⟩

/-- A module without signatures and imports, with custom sections among the others. -/
def interspersed : Module where
  sections := [.custom "producers" (.raw []), .memories [⟨1, none⟩], .dataCount 0,
    .custom "notes" (.raw [1]), .code [], .data []]

/-- What becomes of `interspersed`. -/
def interspersedMetered : Module where
  sections := [.custom "producers" (.raw []), .types [⟨.func, [.i64], []⟩],
    .imports [⟨"metering", "usegas", .function 0⟩], .memories [⟨1, none⟩], .dataCount 0,
    .custom "notes" (.raw [1]), .code [], .data []]

/-- A module with custom sections between the others. -/
theorem order_kept_interspersed :
    interspersed.InOrder ∧ interspersed.InStrictOrder ∧
      (interspersed.insert (.exports [])).InStrictOrder ∧
      (interspersed.insertAll [.start 0, .exports [], .start 1]).InOrder ∧
      ¬ (interspersed.insertAll [.start 0, .exports [], .start 1]).InStrictOrder ∧
      interspersed.meter unitTariff {} = .ok (interspersedMetered, 0) ∧
      interspersedMetered.InStrictOrder ∧ interspersedMetered.has .dataCount = true := by
  have ordered : interspersed.InOrder := by decide
  have strict : interspersed.InStrictOrder := by decide
  have done : interspersed.meter unitTariff {} = .ok (interspersedMetered, 0) := by decide +kernel
  obtain ⟨single, sequence, metering⟩ := order_kept interspersed ordered
  obtain ⟨_, _, stays⟩ := single (.exports [])
  obtain ⟨inOrder, _, _, distinct⟩ := sequence [.start 0, .exports [], .start 1]
  obtain ⟨rises, kinds⟩ := metering strict _ _ _ _ done
  exact ⟨ordered, strict, stays strict (Or.inr rfl), inOrder, mt distinct.mp (by decide), done,
    rises, (kinds .dataCount).mpr (Or.inl rfl)⟩

end Module

end WasmGas

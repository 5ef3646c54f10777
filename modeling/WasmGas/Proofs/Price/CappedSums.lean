import Mathlib.Algebra.BigOperators.Group.List.Basic
import WasmGas.Proofs.Price.Exact

/-! # Prices are capped sums

The rules of a tariff in unbounded numbers: what is due for a word, for a field and for a record
(`Tariff.dueWord`, `Tariff.dueBound`, `Tariff.dueRecord`). Every price of a list is what is due for
its items together, cut off once to the greatest amount (`Gas.CappedSum`), although gas is cut off
in each of the sums on the way. So neither order nor grouping matters to a price, as deep
as the lists may lie (`Tariff.prices_cappedSums`).
-/

namespace WasmGas

namespace Gas

/-- The limit is the greatest number of eight bytes. -/
theorem units_cap (amount : Nat) : (cap amount).units = min (2 ^ 64 - 1) amount :=
  Nat.min_comm amount gasLimit

/-- A price of lists is what is due for their items together, cut off to the greatest amount. So it
is the same in any order, and the prices of the two parts of a list add up to it. -/
structure CappedSum {α : Type} (price : List α → Gas) (due : α → Nat) : Prop where
  units : ∀ items, (price items).units = min (2 ^ 64 - 1) (items.map due).sum
  parts : ∀ items others, (price (items ++ others)).units =
    min (2 ^ 64 - 1) ((price items).units + (price others).units)
  order : ∀ items others, items.Perm others → price items = price others

/-- A price that caps the sum of what is due has all the laws of a capped sum. -/
theorem CappedSum.of_cap {α : Type} {price : List α → Gas} {due : α → Nat}
    (capped : ∀ items, price items = cap (items.map due).sum) : CappedSum price due where
  units items := by rw [capped, units_cap]
  parts items others := by
    rw [capped, capped, capped, List.map_append, List.sum_append, units_cap, units_cap, units_cap]
    omega
  order items others permuted := by
    rw [capped, capped, (permuted.map due).sum_eq]

end Gas

/-- The fields of a signature that have a price. -/
def Signature.fields (signature : Signature) : List (String × FieldValue) :=
  [("form", .name signature.form.name),
    ("params", .names (signature.params.map (·.name))),
    ("returns", .names (signature.returns.map (·.name)))]

/-- The fields of a group of locals that have a price. -/
def LocalGroup.fields (group : LocalGroup) : List (String × FieldValue) :=
  [("count", .scalar), ("type", .name group.type.name)]

namespace Tariff

variable (tariff : Tariff)

/-! ## What is due -/

/-- The amount that a key is bound to, if it is bound to one. -/
def amount? (key : String) : Option Nat :=
  match tariff.price? key with
  | some (.flat gas) => some gas.units
  | _ => none

/-- The tariff that a key is bound to, if it is bound to one. -/
def inner? (key : String) : Option Tariff :=
  match tariff.price? key with
  | some (.tariff entries) => some entries
  | _ => none

/-- What is due for all that the tariff does not name: its own `DEFAULT`, or else what is handed
down to it. -/
def due (inherited : Nat) : Nat := (tariff.amount? "DEFAULT").getD inherited

/-- The empty word is free. Any other costs its amount, or the `DEFAULT` of the tariff that it is
bound to, or else what is due here. -/
def dueWord (inherited : Nat) (word : String) : Nat :=
  if word = "" then 0
  else
    (tariff.amount? word).getD
      (((tariff.inner? word).bind (·.amount? "DEFAULT")).getD (tariff.due inherited))

/-- What is due for the value of a field in the tariff that the field is bound to. The words of a
list inherit nothing. -/
def dueField (inherited : Nat) : FieldValue → Nat
  | .name word => tariff.dueWord inherited word
  | .names words => (words.map (tariff.dueWord 0)).sum
  | .scalar => tariff.due inherited

/-- What is due for a field of a record: the amount that it is bound to, what its value costs in the
tariff that it is bound to, or what is due for all that is not bound. -/
def dueBound (inherited : Nat) (field : String × FieldValue) : Nat :=
  match tariff.amount? field.1, tariff.inner? field.1 with
  | some amount, _ => amount
  | none, some inner => inner.dueField (tariff.due inherited) field.2
  | none, none => tariff.due inherited

def dueRecord (inherited : Nat) (fields : List (String × FieldValue)) : Nat :=
  (fields.map (tariff.dueBound inherited)).sum

/-! ## Prices by the rules -/

/-- What is charged where nothing is bound is what is due. -/
theorem units_fallback (inherited : Gas) :
    (tariff.fallback inherited).units = tariff.due inherited.units := by
  unfold fallback ownFallback? due amount? fallbackKey
  cases tariff.price? "DEFAULT" with
  | none => rfl
  | some price => cases price <;> rfl

/-- What a name is charged is what is due for it. -/
theorem units_priceName (word : String) (inherited : Gas) :
    (tariff.priceName word inherited).units = tariff.dueWord inherited.units word := by
  unfold priceName dueWord
  by_cases empty : word = ""
  · rw [if_pos empty, if_pos empty, Gas.units_zero]
  · rw [if_neg empty, if_neg empty]
    unfold amount? inner?
    cases tariff.price? word with
    | none => exact tariff.units_fallback inherited
    | some price =>
        cases price with
        | flat gas => rfl
        | tariff entries =>
            exact (units_fallback entries _).trans (congrArg _ (tariff.units_fallback inherited))

/-- The exact price of a field is what is due for it. -/
theorem exactField_eq (value : FieldValue) (inherited : Gas) :
    tariff.exactField value inherited = tariff.dueField inherited.units value := by
  cases value with
  | name word => exact tariff.units_priceName word inherited
  | names words =>
      exact congrArg List.sum (List.map_congr_left fun word _ => tariff.units_priceName word 0)
  | scalar => exact tariff.units_fallback inherited

theorem exactBound_eq (inherited : Gas) (field : String × FieldValue) :
    tariff.exactBound inherited field = tariff.dueBound inherited.units field := by
  unfold exactBound dueBound amount? inner?
  cases tariff.price? field.1 with
  | none => exact tariff.units_fallback inherited
  | some price =>
      cases price with
      | flat gas => rfl
      | tariff entries =>
          change exactField entries field.2 _ = dueField entries _ field.2
          rw [exactField_eq, units_fallback]

/-- What a record is charged is what is due for it, capped. -/
theorem priceRecord_eq_cap_due (fields : List (String × FieldValue)) (inherited : Gas) :
    tariff.priceRecord fields inherited = .cap (tariff.dueRecord inherited.units fields) := by
  have exactly : tariff.exactRecord fields inherited = tariff.dueRecord inherited.units fields :=
    congrArg List.sum (List.map_congr_left fun field _ => tariff.exactBound_eq inherited field)
  rw [priceRecord_eq_cap, exactly]

theorem priceField_eq_cap_due (value : FieldValue) (inherited : Gas) :
    tariff.priceField value inherited = .cap (tariff.dueField inherited.units value) := by
  rw [priceField_eq_cap, exactField_eq]

/-- What things of some kind cost: one of them, and lists of them, which inherit nothing. -/
structure Prices {α : Type} [Priced α] (due : Nat → α → Nat) : Prop where
  one : ∀ inherited item, (Priced.price tariff inherited item).units =
    min (2 ^ 64 - 1) (due inherited.units item)
  all : Gas.CappedSum (fun items : List α => tariff.priceAll items) (due 0)

/-- A tariff prices by what is due if each price caps that. -/
theorem Prices.of_cap {tariff : Tariff} {α : Type} [Priced α] {due : Nat → α → Nat}
    (capped : ∀ inherited item, Priced.price tariff inherited item =
      Gas.cap (due inherited.units item)) : tariff.Prices due where
  one inherited item := by rw [capped, Gas.units_cap]
  all := .of_cap fun items => Gas.sum_eq_cap (capped 0) items

/-- Words of a list are charged for in any order. -/
theorem dueBound_names (inherited : Nat) (key : String) {words others : List String}
    (permuted : words.Perm others) :
    tariff.dueBound inherited (key, .names words) =
      tariff.dueBound inherited (key, .names others) := by
  unfold dueBound
  cases tariff.amount? key with
  | some amount => rfl
  | none =>
      cases tariff.inner? key with
      | none => rfl
      | some inner => exact (permuted.map (dueWord inner 0)).sum_eq

/-- **Prices are capped sums.** Every price of a list, be it of the fields of a record, of the words
of a field, or of signatures, groups of locals or instructions, is what the rules say for its items
in unbounded numbers, cut off once. It is the same in any order, and the prices of two parts
of a list add up to it; so a signature costs the same with its parameters and its results in any
order. -/
theorem prices_cappedSums :
    (∀ inherited, Gas.CappedSum (tariff.priceRecord · inherited)
      (tariff.dueBound inherited.units)) ∧
    (∀ inherited, Gas.CappedSum (fun words => tariff.priceField (.names words) inherited)
      (tariff.dueWord 0)) ∧
    tariff.Prices (fun inherited (signature : Signature) =>
      tariff.dueRecord inherited signature.fields) ∧
    tariff.Prices (fun inherited (group : LocalGroup) =>
      tariff.dueRecord inherited group.fields) ∧
    tariff.Prices (fun inherited (instruction : Instruction) =>
      tariff.dueWord inherited instruction.name) ∧
    (∀ inherited (one other : Signature), one.form = other.form →
      one.params.Perm other.params → one.returns.Perm other.returns →
        Priced.price tariff inherited one = Priced.price tariff inherited other) := by
  have signatures (inherited : Gas) (signature : Signature) :
      Priced.price tariff inherited signature =
        .cap (tariff.dueRecord inherited.units signature.fields) :=
    tariff.priceRecord_eq_cap_due signature.fields inherited
  have instructions (inherited : Gas) (instruction : Instruction) :
      Priced.price tariff inherited instruction =
        .cap (tariff.dueWord inherited.units instruction.name) := by
    rw [← units_priceName, Gas.cap_units]
    rfl
  refine ⟨fun inherited => .of_cap fun fields => tariff.priceRecord_eq_cap_due fields inherited,
    fun inherited => .of_cap fun words => tariff.priceField_eq_cap_due (.names words) inherited,
    .of_cap signatures, .of_cap fun inherited group =>
      tariff.priceRecord_eq_cap_due group.fields inherited, .of_cap instructions, ?_⟩
  intro inherited one other form params returns
  rw [signatures, signatures]
  unfold dueRecord Signature.fields
  simp only [List.map_cons, form, tariff.dueBound_names _ _ (params.map (·.name)),
    tariff.dueBound_names _ _ (returns.map (·.name))]

end Tariff

end WasmGas

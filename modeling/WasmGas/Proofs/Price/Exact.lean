import WasmGas.Price.Priced
import WasmGas.Proofs.Price.Gas

/-! # Exact prices

What things cost in unbounded numbers. Gas is cut off at its greatest amount in every sum on the
way to a price, an exact price nowhere. The two agree all the same: a price is what the exact
price is cut off to (`Tariff.signatureCost_eq_cap`, `Tariff.localsCost_eq_cap`), for cutting off
respects sums (`Gas.cap_add`).
-/

namespace WasmGas

namespace Gas

/-- Capping a sum is the same as adding what was capped. -/
theorem cap_add (a b : Nat) : cap (a + b) = cap a + cap b := by
  ext
  change min (a + b) gasLimit = min (min a gasLimit + min b gasLimit) gasLimit
  omega

theorem cap_units (gas : Gas) : cap gas.units = gas :=
  ext (Nat.min_eq_left gas.units_le)

/-- Capping the sum of a list is the same as adding its capped amounts. -/
theorem cap_sum (amounts : List Nat) : cap amounts.sum = (amounts.map cap).sum := by
  induction amounts with
  | nil => rfl
  | cons head tail same => rw [List.sum_cons, cap_add, same, List.map_cons, List.sum_cons]

/-- Only nothing is capped to nothing. -/
theorem cap_eq_zero_iff {amount : Nat} : cap amount = 0 ↔ amount = 0 := by
  constructor
  · intro nothing
    have units : min amount gasLimit = 0 := congrArg Gas.units nothing
    have positive : 0 < gasLimit := by decide
    omega
  · rintro rfl
    rfl

/-- If each price is what an exact price is cut off to, so is their sum. -/
theorem sum_eq_cap {α : Type} {price : α → Gas} {exact : α → Nat}
    (each : ∀ item, price item = cap (exact item)) (items : List α) :
    (items.map price).sum = cap (items.map exact).sum := by
  rw [cap_sum, List.map_map]
  exact congrArg List.sum (List.map_congr_left fun item _ => each item)

end Gas

namespace Tariff

variable (tariff : Tariff)

/-- What a field costs exactly that is bound to this tariff. -/
def exactField (value : FieldValue) (inherited : Gas) : Nat :=
  match value with
  | .name word => (tariff.priceName word inherited).units
  | .names words => (words.map fun word => (tariff.priceName word 0).units).sum
  | .scalar => (tariff.fallback inherited).units

/-- What one field of a record costs exactly. -/
def exactBound (inherited : Gas) (field : String × FieldValue) : Nat :=
  match tariff.price? field.1 with
  | none => (tariff.fallback inherited).units
  | some (.flat gas) => gas.units
  | some (.tariff entries) => exactField entries field.2 (tariff.fallback inherited)

/-- What a record costs exactly. -/
def exactRecord (fields : List (String × FieldValue)) (inherited : Gas) : Nat :=
  (fields.map (tariff.exactBound inherited)).sum

/-- What a signature costs exactly. -/
def exactSignature (signature : Signature) : Nat :=
  tariff.signatures.exactRecord
    [("form", .name signature.form.name),
      ("params", .names (signature.params.map (·.name))),
      ("returns", .names (signature.returns.map (·.name)))] 0

/-- What groups of locals cost exactly, whatever the number of locals in each. -/
def exactLocals (groups : List LocalGroup) : Nat :=
  (groups.map fun group =>
    tariff.locals.exactRecord [("count", .scalar), ("type", .name group.type.name)] 0).sum

/-- What a field is charged is its exact price, capped. -/
theorem priceField_eq_cap (value : FieldValue) (inherited : Gas) :
    tariff.priceField value inherited = .cap (tariff.exactField value inherited) := by
  cases value with
  | name word => exact (Gas.cap_units _).symm
  | names words => exact Gas.sum_eq_cap (fun word => (Gas.cap_units _).symm) words
  | scalar => exact (Gas.cap_units _).symm

theorem priceBound_eq_cap (inherited : Gas) (field : String × FieldValue) :
    tariff.priceBound inherited field = .cap (tariff.exactBound inherited field) := by
  unfold priceBound exactBound
  cases tariff.price? field.1 with
  | none => exact (Gas.cap_units _).symm
  | some price =>
      cases price with
      | flat gas => exact (Gas.cap_units _).symm
      | tariff entries => exact priceField_eq_cap entries field.2 _

/-- What a record is charged is the exact price of its fields, capped. -/
theorem priceRecord_eq_cap (fields : List (String × FieldValue)) (inherited : Gas) :
    tariff.priceRecord fields inherited = .cap (tariff.exactRecord fields inherited) :=
  Gas.sum_eq_cap (tariff.priceBound_eq_cap inherited) fields

/-- What a signature is charged is its exact price, capped. -/
theorem signatureCost_eq_cap (signature : Signature) :
    tariff.signatureCost signature = .cap (tariff.exactSignature signature) :=
  tariff.signatures.priceRecord_eq_cap _ 0

theorem localsCost_eq_cap (groups : List LocalGroup) :
    tariff.localsCost groups = .cap (tariff.exactLocals groups) :=
  Gas.sum_eq_cap (fun _ => tariff.locals.priceRecord_eq_cap _ 0) groups

end Tariff

end WasmGas

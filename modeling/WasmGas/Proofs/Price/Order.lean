import Mathlib.Algebra.Order.BigOperators.Group.List
import Mathlib.Data.Option.Defs
import WasmGas.Price.Priced
import WasmGas.Proofs.Price.Gas

/-! # Dearer tariffs

A tariff is at most another if both bind the same keys, down to the same depth, and each amount of
gas is at most the other one (`Tariff.AtMost`). Then everything that has a price costs at most as
much by the one as by the other. A fallback may move many prices at once, but it moves them
all the same way.
-/

namespace WasmGas

namespace Gas

instance : PartialOrder Gas := PartialOrder.lift units fun _ _ => ext

theorem le_def {a b : Gas} : a ≤ b ↔ a.units ≤ b.units := Iff.rfl

instance : IsOrderedAddMonoid Gas where
  add_le_add_left a b below c := by
    rw [le_def] at below ⊢
    rw [units_add, units_add]
    omega

theorem zero_le (a : Gas) : 0 ≤ a := Nat.zero_le a.units

/-- What costs at least as much as something that is not free is not free either. -/
theorem ne_zero_of_le {a b : Gas} (below : a ≤ b) (paid : a ≠ 0) : b ≠ 0 := by
  rintro rfl
  exact paid (le_antisymm below (zero_le a))

end Gas

mutual

/-- Whether a price is at most another one of the same form. -/
inductive Price.AtMost : Price → Price → Prop
  | flat {gas more : Gas} : gas ≤ more → Price.AtMost (.flat gas) (.flat more)
  | tariff {cheap dear : Tariff} : Tariff.AtMost cheap dear →
      Price.AtMost (.tariff cheap) (.tariff dear)

/-- Whether two tariffs bind the same keys, each to a price that is at most the other one. -/
inductive Tariff.AtMost : Tariff → Tariff → Prop
  | nil : Tariff.AtMost [] []
  | cons {key : String} {price more : Price} {cheap dear : Tariff} : Price.AtMost price more →
      Tariff.AtMost cheap dear → Tariff.AtMost ((key, price) :: cheap) ((key, more) :: dear)

end

mutual

theorem Price.AtMost.refl : (price : Price) → price.AtMost price
  | .flat _ => .flat le_rfl
  | .tariff entries => .tariff (Tariff.AtMost.refl entries)

theorem Tariff.AtMost.refl : (tariff : Tariff) → tariff.AtMost tariff
  | [] => .nil
  | (_, price) :: rest => .cons (Price.AtMost.refl price) (Tariff.AtMost.refl rest)

end

namespace Tariff

variable {cheap dear : Tariff} {inherited more : Gas}

/-- A key is bound in both tariffs or in neither. -/
theorem AtMost.price? (cheaper : cheap.AtMost dear) (key : String) :
    Option.Rel Price.AtMost (cheap.price? key) (dear.price? key) := by
  induction cheap generalizing dear with
  | nil =>
      cases cheaper
      exact .none
  | cons first rest found =>
      cases cheaper with
      | @cons bound price other _ others atMost behind =>
          unfold Tariff.price?
          rw [List.lookup_cons, List.lookup_cons]
          cases key == bound with
          | true => exact .some atMost
          | false => exact found behind

/-- The tables below a key are in the same order. -/
theorem AtMost.sub (cheaper : cheap.AtMost dear) (key : String) :
    (cheap.sub key).AtMost (dear.sub key) := by
  unfold Tariff.sub
  have bound := cheaper.price? key
  generalize cheap.price? key = price, dear.price? key = other at bound ⊢
  cases bound with
  | none => exact .nil
  | some atMost =>
      cases atMost with
      | flat _ => exact .nil
      | tariff entries => exact entries

/-- What is charged where nothing is bound does not fall with a dearer tariff. -/
theorem fallback_le (cheaper : cheap.AtMost dear) (below : inherited ≤ more) :
    cheap.fallback inherited ≤ dear.fallback more := by
  unfold fallback ownFallback?
  have bound := cheaper.price? fallbackKey
  generalize cheap.price? fallbackKey = price, dear.price? fallbackKey = other at bound ⊢
  cases bound with
  | none => exact below
  | some atMost =>
      cases atMost with
      | flat amount => exact amount
      | tariff _ => exact below

/-- What a name is charged does not fall with a dearer tariff. -/
theorem priceName_le (cheaper : cheap.AtMost dear) (name : String) (below : inherited ≤ more) :
    cheap.priceName name inherited ≤ dear.priceName name more := by
  unfold priceName
  by_cases empty : name = ""
  · rw [if_pos empty, if_pos empty]
  · rw [if_neg empty, if_neg empty]
    have bound := cheaper.price? name
    generalize cheap.price? name = price, dear.price? name = other at bound ⊢
    cases bound with
    | none => exact fallback_le cheaper below
    | some atMost =>
        cases atMost with
        | flat amount => exact amount
        | tariff entries => exact fallback_le entries (fallback_le cheaper below)

theorem priceField_le (cheaper : cheap.AtMost dear) (value : FieldValue)
    (below : inherited ≤ more) :
    cheap.priceField value inherited ≤ dear.priceField value more := by
  cases value with
  | name word => exact priceName_le cheaper word below
  | names words => exact List.sum_le_sum fun word _ => priceName_le cheaper word le_rfl
  | scalar => exact fallback_le cheaper below

theorem priceBound_le (cheaper : cheap.AtMost dear) (below : inherited ≤ more)
    (field : String × FieldValue) :
    cheap.priceBound inherited field ≤ dear.priceBound more field := by
  unfold priceBound
  have bound := cheaper.price? field.1
  generalize cheap.price? field.1 = price, dear.price? field.1 = other at bound ⊢
  cases bound with
  | none => exact fallback_le cheaper below
  | some atMost =>
      cases atMost with
      | flat amount => exact amount
      | tariff entries => exact priceField_le entries field.2 (fallback_le cheaper below)

/-- What a record is charged does not fall with a dearer tariff. -/
theorem priceRecord_le (cheaper : cheap.AtMost dear) (fields : List (String × FieldValue))
    (below : inherited ≤ more) :
    cheap.priceRecord fields inherited ≤ dear.priceRecord fields more :=
  List.sum_le_sum fun field _ => priceBound_le cheaper below field

/-- What a signature is charged does not fall with a dearer tariff. -/
theorem signatureCost_le (cheaper : cheap.AtMost dear) (signature : Signature) :
    cheap.signatureCost signature ≤ dear.signatureCost signature :=
  priceRecord_le (cheaper.sub "type") _ le_rfl

theorem localsCost_le (cheaper : cheap.AtMost dear) (groups : List LocalGroup) :
    cheap.localsCost groups ≤ dear.localsCost groups :=
  List.sum_le_sum fun _ _ => priceRecord_le ((cheaper.sub "code").sub "locals") _ le_rfl

end Tariff

end WasmGas

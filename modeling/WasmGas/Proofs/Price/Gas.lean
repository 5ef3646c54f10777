import Mathlib.Algebra.BigOperators.Group.List.Basic
import Mathlib.Algebra.Ring.Nat
import WasmGas.Price.Gas

/-! # Sums of gas

Sums that stop at the greatest amount are still sums: neither order nor grouping matters to
them. The sum of a list is the sum of its units as long as that is below the greatest amount
(`Gas.units_sum`).
-/

namespace WasmGas.Gas

/-- The limit is the greatest number of eight bytes. -/
theorem gasLimit_eq : gasLimit = 0xffffffffffffffff := rfl

instance : AddCommMonoid Gas where
  add_assoc a b c := by
    ext
    simp only [units_add]
    omega
  zero_add a := by
    ext
    have bounded := a.units_le
    simp only [units_add, units_zero]
    omega
  add_zero a := by
    ext
    have bounded := a.units_le
    simp only [units_add, units_zero]
    omega
  add_comm a b := by
    ext
    simp only [units_add]
    omega
  nsmul := nsmulRec

/-- To add gas never lowers an amount. -/
theorem units_le_add (a b : Gas) : a.units ≤ (a + b).units := by
  have bounded := a.units_le
  rw [units_add]
  omega

/-- A sum of amounts stops at the limit, in whatever order they are added. -/
theorem units_sum (amounts : List Gas) :
    amounts.sum.units = min (amounts.map units).sum gasLimit := by
  induction amounts with
  | nil => rfl
  | cons head tail capped =>
      have bounded := head.units_le
      rw [List.sum_cons, units_add, capped, List.map_cons, List.sum_cons]
      omega

/-- A sum that is not the greatest amount has lost nothing. -/
theorem units_add_of_lt {a b : Gas} (below : (a + b).units < gasLimit) :
    (a + b).units = a.units + b.units := by
  rw [units_add] at below ⊢
  omega

/-- A sum that is below the limit is exact. -/
theorem units_sum_of_lt {amounts : List Gas} (below : amounts.sum.units < gasLimit) :
    amounts.sum.units = (amounts.map units).sum := by
  rw [units_sum] at below ⊢
  omega

end WasmGas.Gas

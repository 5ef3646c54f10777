/-! # Gas

Amounts of gas have a greatest value; a sum that would go beyond it stays there.
-/

namespace WasmGas

/-- The greatest amount of gas. -/
def gasLimit : Nat := UInt64.size - 1

structure Gas where
  units : Nat
  units_le : units ≤ gasLimit
  deriving DecidableEq, Repr

namespace Gas

/-- A number of units, or the greatest amount if there are more. -/
def cap (units : Nat) : Gas := ⟨min units gasLimit, Nat.min_le_right ..⟩

/-- A number of units, if there are not too many. -/
def ofNat? (units : Nat) : Option Gas :=
  if fits : units ≤ gasLimit then some ⟨units, fits⟩ else none

instance : Zero Gas := ⟨cap 0⟩

instance : Add Gas := ⟨fun a b => cap (a.units + b.units)⟩

instance : Inhabited Gas := ⟨0⟩

@[ext]
theorem ext {a b : Gas} (same : a.units = b.units) : a = b := by
  cases a
  cases b
  cases same
  rfl

@[simp]
theorem units_zero : (0 : Gas).units = 0 := rfl

/-- A sum stops at the limit. -/
@[simp]
theorem units_add (a b : Gas) : (a + b).units = min (a.units + b.units) gasLimit := rfl

end Gas

end WasmGas

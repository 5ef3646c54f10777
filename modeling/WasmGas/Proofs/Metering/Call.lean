import WasmGas.Metering.Charge
import WasmGas.Proofs.Assembly.Takers
import WasmGas.Proofs.Price.Gas
import WasmGas.Proofs.Text.Decimal

/-! # The call that charges

The call of the metering function is put together as text. If the register can hold the
amount then that text always assembles, to a constant that passes the amount
(`Register.Passes`) and a direct call (`Meter.call_eq_ok`). What the two cost does not depend
on the amount (`Meter.callCost_eq_ok`).
-/

namespace WasmGas

/-- A constant that passes an amount: an integer is the amount itself, and a float is what
the decimal digits of the amount stand for. -/
def Register.Passes (register : Register) (cost : Gas) (constant : Instruction) : Prop :=
  match register with
  | i32 => ∃ amount : Int32, amount.toInt = cost.units ∧
      constant = ⟨"const", some .i32, some (.int32 amount)⟩
  | i64 => ∃ amount : Int64, amount.toInt = cost.units ∧
      constant = ⟨"const", some .i64, some (.int64 amount)⟩
  | f32 => ∃ bits, Assembly.float32? (naturalText cost.units) = some bits ∧
      constant = ⟨"const", some .f32, some (.float32 bits)⟩
  | f64 => ∃ bits, Assembly.float64? (naturalText cost.units) = some bits ∧
      constant = ⟨"const", some .f64, some (.float64 bits)⟩

/-- What passes an amount is a constant. -/
theorem Register.Passes.name_eq {register : Register} {cost : Gas} {constant : Instruction}
    (passes : register.Passes cost constant) : constant.name = "const" := by
  cases register <;> obtain ⟨_, _, rfl⟩ := passes <;> rfl

namespace Assembly

/-- Two instructions that take one word each. -/
theorem instructions_pair {word digits word' digits' : List Char} {first second : Instruction}
    (one : ∀ rest, instruction word (digits :: rest) = .ok first rest)
    (other : ∀ rest, instruction word' (digits' :: rest) = .ok second rest) :
    instructions [word, digits, word', digits'] = .ok [first, second] := by
  have last : instructionsWithin 3 [word', digits'] = .ok [second] [] := by
    rw [instructionsWithin_cons (other [])]
    rfl
  have both : instructionsWithin 4 [word, digits, word', digits'] = .ok [first, second] [] := by
    rw [instructionsWithin_cons (one [word', digits'])]
    change EStateM.bind (instructionsWithin 3) _ _ = _
    rw [EStateM.bind, last]
    rfl
  unfold instructions
  rw [show [word, digits, word', digits'].length = 4 from rfl, both]

/-- The constant of a register, if it can hold the amount. -/
theorem instruction_const {register : Register} {cost : Gas} (holds : register.holds cost = true) :
    ∃ constant, register.Passes cost constant ∧ ∀ rest,
      instruction (register.name ++ ".const").toList (naturalText cost.units :: rest) =
        .ok constant rest := by
  cases register with
  | i32 =>
      have below : cost.units < 0x80000000 := of_decide_eq_true holds
      have row : operation? "i32.const".toList = some ⟨0x41, some .i32, "const"⟩ := by
        decide +kernel
      have known : int32? (naturalText cost.units) = some (Int32.ofInt cost.units) := by
        rw [int32?, integerWithin?_naturalText below, Option.map_some]
      refine ⟨_, ⟨Int32.ofInt cost.units, ?_, rfl⟩, fun rest => ?_⟩
      · exact Int32.toInt_ofInt_of_le (by omega) (by omega)
      · exact instruction_cons row rfl (operand_cons known .int32 rest)
  | i64 =>
      have below : cost.units < 0x8000000000000000 := of_decide_eq_true holds
      have row : operation? "i64.const".toList = some ⟨0x42, some .i64, "const"⟩ := by
        decide +kernel
      have known : int64? (naturalText cost.units) = some (Int64.ofInt cost.units) := by
        rw [int64?, integerWithin?_naturalText below, Option.map_some]
      refine ⟨_, ⟨Int64.ofInt cost.units, ?_, rfl⟩, fun rest => ?_⟩
      · exact Int64.toInt_ofInt_of_le (by omega) (by omega)
      · exact instruction_cons row rfl (operand_cons known .int64 rest)
  | f32 =>
      have row : operation? "f32.const".toList = some ⟨0x43, some .f32, "const"⟩ := by
        decide +kernel
      have known : float32? (naturalText cost.units) =
          some (UInt32.ofNat (FloatFormat.binary32.nearestDecimal cost.units 0)) := by
        rw [float32?, FloatFormat.ofText?_naturalText, Option.map_some]
      exact ⟨_, ⟨_, known, rfl⟩, fun rest =>
        instruction_cons row rfl (operand_cons known .float32 rest)⟩
  | f64 =>
      have row : operation? "f64.const".toList = some ⟨0x44, some .f64, "const"⟩ := by
        decide +kernel
      have known : float64? (naturalText cost.units) =
          some (UInt64.ofNat (FloatFormat.binary64.nearestDecimal cost.units 0)) := by
        rw [float64?, FloatFormat.ofText?_naturalText, Option.map_some]
      exact ⟨_, ⟨_, known, rfl⟩, fun rest =>
        instruction_cons row rfl (operand_cons known .float64 rest)⟩

/-- The call of the metering function is assembled from its index. -/
theorem instruction_call (function : UInt32) (rest : List (List Char)) :
    instruction "call".toList (naturalText function.toNat :: rest) =
      .ok ⟨"call", none, some (.index function)⟩ rest := by
  have row : operation? "call".toList = some ⟨0x10, none, "call"⟩ := by decide +kernel
  exact instruction_cons row rfl (operand_cons (uint32?_text function) .index rest)

end Assembly

namespace Meter

variable (meter : Meter)

/-- The direct call of the metering function. -/
def invocation : Instruction := ⟨"call", none, some (.index meter.function)⟩

/-- What the constant and the call in front of a run cost. -/
def ownCost : Gas :=
  (["const", "call"].map (meter.tariff.instructions.priceName · 0)).sum

variable {meter}

/-- A charge costs what its two instructions cost. -/
theorem ownCost_eq {cost : Gas} {constant : Instruction}
    (passes : meter.register.Passes cost constant) :
    ([constant, meter.invocation].map meter.tariff.instructionCost).sum = meter.ownCost := by
  have same : meter.tariff.instructionCost constant =
      meter.tariff.instructions.priceName "const" 0 :=
    congrArg (meter.tariff.instructions.priceName · 0) passes.name_eq
  rw [List.map_cons, same]
  rfl

/-- The text of a call assembles if the register can hold the amount. -/
theorem call_eq_ok {cost : Gas} (holds : meter.register.holds cost = true) :
    ∃ constant, meter.register.Passes cost constant ∧
      meter.call cost = .ok [constant, meter.invocation] := by
  obtain ⟨constant, passes, one⟩ := Assembly.instruction_const holds
  refine ⟨constant, passes, ?_⟩
  rw [call, callWords, Assembly.instructions_pair one (Assembly.instruction_call meter.function)]
  rfl

/-- The cost of a charge can always be determined. -/
theorem callCost_eq_ok : meter.callCost = .ok meter.ownCost := by
  have holds : meter.register.holds 0 = true := by cases meter.register <;> rfl
  obtain ⟨constant, passes, called⟩ := call_eq_ok holds
  rw [callCost, called, ← ownCost_eq passes]
  rfl

/-- A charge is a constant with the amount and a call. -/
theorem charge_eq_ok {cost : Gas} {charge : List Instruction}
    (done : meter.charge cost = .ok charge) :
    ∃ constant, meter.register.Passes cost constant ∧ charge = [constant, meter.invocation] := by
  unfold Meter.charge at done
  by_cases holds : meter.register.holds cost = true
  · obtain ⟨constant, passes, called⟩ := call_eq_ok holds
    rw [if_pos holds, called] at done
    cases done
    exact ⟨constant, passes, rfl⟩
  · rw [if_neg holds] at done
    cases done

end Meter

end WasmGas

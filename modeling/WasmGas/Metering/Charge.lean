import WasmGas.Metering.Options
import WasmGas.Price.Priced
import WasmGas.Text.Integer

/-! # Charging runs

A body is cut into runs, each of which ends with a branch, so that control that enters a
run at its start goes through it to its end. In front of every run with a price the
metering function is called with that price and the price of the call itself.
-/

namespace WasmGas

/-- The runs of some code, and what comes after the last branch. -/
def runs : List Instruction → List (List Instruction) × List Instruction
  | [] => ([], [])
  | instruction :: rest =>
    let (complete, unfinished) := runs rest
    if instruction.isBranch then ([instruction] :: complete, unfinished)
    else
      match complete with
      | [] => ([], instruction :: unfinished)
      | first :: others => ((instruction :: first) :: others, unfinished)

/-- What it takes to charge for code: the prices, and the metering function. -/
structure Meter where
  tariff : Tariff
  register : Register
  function : UInt32

namespace Meter

variable (meter : Meter)

/-- The words of a call of the metering function. -/
def callWords (cost : Gas) : List (List Char) :=
  [(meter.register.name ++ ".const").toList, naturalText cost.units, "call".toList,
    naturalText meter.function.toNat]

/-- A call of the metering function. -/
def call (cost : Gas) : Except MeteringError (List Instruction) :=
  (Assembly.instructions (meter.callWords cost)).mapError .assembly

/-- What a call of the metering function costs itself. -/
def callCost : Except MeteringError Gas := do
  return ((← meter.call 0).map meter.tariff.instructionCost).sum

/-- A call of the metering function, if it can take the amount. -/
def charge (cost : Gas) : Except MeteringError (List Instruction) :=
  if meter.register.holds cost then meter.call cost
  else throw (.costOverflow cost meter.register)

end Meter

/-- Code with its calls of the metering function, how many there are, and the gas that
they charge together. -/
structure MeteredCode where
  code : List Instruction
  calls : Nat
  gas : Gas
  deriving DecidableEq, Repr

namespace Meter

variable (meter : Meter)

/-- Puts the charge for a run in front of it. What is carried is charged with it. -/
def meterRun (callCost carried : Gas) (run : List Instruction) :
    Except MeteringError MeteredCode := do
  let price := carried + (run.map meter.tariff.instructionCost).sum
  if price = 0 then return ⟨run, 0, 0⟩
  else
    let call ← meter.charge (price + callCost)
    return ⟨call ++ run, 1, price + callCost⟩

/-- Charges for each of some runs. What is carried is charged with the first. -/
def meterRuns (callCost : Gas) : (carried : Gas) → List (List Instruction) →
    Except MeteringError MeteredCode
  | _, [] => return ⟨[], 0, 0⟩
  | carried, run :: others => do
    let first ← meter.meterRun callCost carried run
    let rest ← meterRuns callCost 0 others
    return ⟨first.code ++ rest.code, first.calls + rest.calls, first.gas + rest.gas⟩

/-- Charges for the code of a function, of which `entry` is to be paid on entry. -/
def meterCode (callCost entry : Gas) (function : UInt32) (code : List Instruction) :
    Except MeteringError MeteredCode := do
  let (complete, unfinished) := runs code
  let metered ← meter.meterRuns callCost entry complete
  if unfinished = [] then return metered else throw (.missingTerminator function)

end Meter

end WasmGas

import WasmGas.Price.Tariff

/-! # The standard tariff

The prices that count where no others are given: parameters, results, groups of locals
and most instructions cost one unit.
-/

namespace WasmGas.Tariff

/-- A tariff of flat prices. -/
def flat (costs : List (String × Nat)) : Price :=
  .tariff (ofBindings (costs.map fun (key, units) => (key, .flat (.cap units))))

/-- What instructions cost by the standard tariff. -/
def standardInstructions : Price :=
  flat [
    ("get", 1), ("set", 1), ("tee", 1), ("const", 1), ("select", 1), ("drop", 1), ("nop", 0),
    ("unreachable", 0), ("block", 0), ("loop", 0), ("if", 1), ("else", 0), ("end", 0), ("br", 2),
    ("br_if", 3), ("br_table", 5), ("return", 2), ("call", 10), ("call_indirect", 12),
    ("load", 3), ("load8_s", 3), ("load8_u", 3), ("load16_s", 3), ("load16_u", 3),
    ("load32_s", 3), ("load32_u", 3), ("store", 3), ("store8", 3), ("store16", 3), ("store32", 3),
    ("current_memory", 1), ("grow_memory", 10000), ("mul", 3), ("div_s", 80), ("div_u", 80),
    ("rem_s", 80), ("rem_u", 80), ("div", 80), ("sqrt", 30), ("DEFAULT", 1)]

def standard : Tariff :=
  ofBindings
    [("type", .tariff (ofBindings
        [("params", flat [(fallbackKey, 1)]), ("returns", flat [(fallbackKey, 1)]),
          (fallbackKey, .flat 0)])),
      ("code", .tariff (ofBindings
        [("locals", flat [(fallbackKey, 1)]), ("code", standardInstructions)]))]

end WasmGas.Tariff

import WasmGas.Price.Gas

/-! # Tariffs

A tariff binds keys to prices, and a price is an amount of gas or a tariff again. What
a tariff has no key for costs its fallback: the amount bound to `DEFAULT`, or else what
the tariff around it hands down.
-/

namespace WasmGas

/-- What a key of a tariff is bound to. -/
inductive Price where
  | flat (gas : Gas)
  | tariff (entries : List (String × Price))

/-- Keys and their prices, by rising keys. -/
abbrev Tariff := List (String × Price)

namespace Tariff

/-- Binds a key, in place of what it was bound to. -/
def bind (key : String) (price : Price) : Tariff → Tariff
  | [] => [(key, price)]
  | (first, other) :: rest =>
    if key < first then (key, price) :: (first, other) :: rest
    else if key = first then (key, price) :: rest
    else (first, other) :: bind key price rest

/-- The tariff of some bindings. Of two for one key the later one counts. -/
def ofBindings (bindings : List (String × Price)) : Tariff :=
  bindings.foldl (fun tariff (key, price) => tariff.bind key price) []

/-- The key of the fallback. -/
def fallbackKey : String := "DEFAULT"

def price? (tariff : Tariff) (key : String) : Option Price :=
  tariff.lookup key

/-- The tariff that a key is bound to, or an empty one. -/
def sub (tariff : Tariff) (key : String) : Tariff :=
  match tariff.price? key with
  | some (.tariff entries) => entries
  | _ => []

/-- The fallback that the tariff itself declares. -/
def ownFallback? (tariff : Tariff) : Option Gas :=
  match tariff.price? fallbackKey with
  | some (.flat gas) => some gas
  | _ => none

def fallback (tariff : Tariff) (inherited : Gas) : Gas :=
  tariff.ownFallback?.getD inherited

/-- What a word costs. The empty word is free, and one that is bound to a tariff costs
the fallback there. -/
def priceName (tariff : Tariff) (name : String) (inherited : Gas) : Gas :=
  if name = "" then 0
  else
    match tariff.price? name with
    | some (.flat gas) => gas
    | some (.tariff entries) => fallback entries (tariff.fallback inherited)
    | none => tariff.fallback inherited

end Tariff

/-- What a field of a record holds, as far as its price goes. -/
inductive FieldValue where
  | name (word : String)
  | names (words : List String)
  | scalar
  deriving DecidableEq, Repr

namespace Tariff

/-- What a field costs that is bound to this tariff. The words of a list inherit
nothing from outside. -/
def priceField (tariff : Tariff) (value : FieldValue) (inherited : Gas) : Gas :=
  match value with
  | .name word => tariff.priceName word inherited
  | .names words => (words.map fun word => tariff.priceName word 0).sum
  | .scalar => tariff.fallback inherited

/-- What one field of a record costs: the fallback if its key is not bound, the amount
that it is bound to, or what its value costs in the tariff that it is bound to. -/
def priceBound (tariff : Tariff) (inherited : Gas) (field : String × FieldValue) : Gas :=
  match tariff.price? field.1 with
  | none => tariff.fallback inherited
  | some (.flat gas) => gas
  | some (.tariff entries) => priceField entries field.2 (tariff.fallback inherited)

/-- What a record costs: the sum of its fields. -/
def priceRecord (tariff : Tariff) (fields : List (String × FieldValue)) (inherited : Gas) : Gas :=
  (fields.map (tariff.priceBound inherited)).sum

end Tariff

end WasmGas

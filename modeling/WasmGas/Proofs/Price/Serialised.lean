import Mathlib.Data.String.Basic
import WasmGas.Proofs.Price.Quoted

/-! # Tariffs survive serialisation

The keys of a tariff rise, at every level of it (`Tariff.Ordered`), and so they do in all that is
read (`Tariff.ordered_of_ofJson?`). What is written for such a tariff is read as the same tariff,
whatever its keys and its amounts are, if not too many levels lie one inside the other, and not
otherwise (`Tariff.ofJson?_toJson`). The proof goes by the recursion of the writer: each price is
read back in front of what can follow it, which is a comma, a closing brace or nothing
(`Json.price_writePrice`).
-/

namespace WasmGas

mutual

/-- Whether the keys rise in what a price consists of. -/
inductive Price.Ordered : Price → Prop
  | flat (gas : Gas) : Price.Ordered (.flat gas)
  | tariff {entries : Tariff} : Tariff.Ordered entries → Price.Ordered (.tariff entries)

/-- Whether the keys rise in a tariff and in the tariffs inside it. -/
inductive Tariff.Ordered : Tariff → Prop
  | nil : Tariff.Ordered []
  | cons {key : String} {price : Price} {rest : Tariff} : Price.Ordered price →
      Tariff.Ordered rest → (∀ entry ∈ rest, key < entry.1) → Tariff.Ordered ((key, price) :: rest)

end

mutual

/-- How many tariffs lie one inside the other. -/
def Price.levels : Price → Nat
  | .flat _ => 0
  | .tariff entries => Tariff.levels entries

def Tariff.levels : Tariff → Nat
  | [] => 1
  | (_, price) :: rest => max (price.levels + 1) (Tariff.levels rest)

end

/-! ## Bindings -/

namespace Tariff

variable {tariff : Tariff} {key : String} {price : Price}

/-- A tariff is in order if its first entry is and comes before the others. -/
theorem ordered_cons_iff :
    Ordered ((key, price) :: tariff) ↔
      price.Ordered ∧ tariff.Ordered ∧ ∀ entry ∈ tariff, key < entry.1 := by
  constructor
  · rintro ⟨⟩
    exact ⟨‹_›, ‹_›, ‹_›⟩
  · rintro ⟨known, ordered, above⟩
    exact .cons known ordered above

/-- A tariff is one level by itself. -/
theorem levels_pos (tariff : Tariff) : 0 < tariff.levels := by
  cases tariff with
  | nil =>
      rw [levels]
      exact Nat.one_pos
  | cons entry rest =>
      rw [levels]
      exact lt_max_of_lt_left (Nat.succ_pos _)

/-- Binding a key brings in no other entry. -/
theorem mem_bind {entry : String × Price} (inside : entry ∈ tariff.bind key price) :
    entry = (key, price) ∨ entry ∈ tariff := by
  induction tariff with
  | nil => exact Or.inl (List.mem_singleton.mp inside)
  | cons first rest found =>
      rw [bind] at inside
      split at inside
      · exact List.mem_cons.mp inside
      · split at inside
        · exact (List.mem_cons.mp inside).imp_right (List.mem_cons_of_mem first)
        · rcases List.mem_cons.mp inside with rfl | inside
          · exact Or.inr List.mem_cons_self
          · exact (found inside).imp_right (List.mem_cons_of_mem first)

/-- To bind a key keeps the keys in order. -/
theorem Ordered.bind (ordered : tariff.Ordered) (bound : price.Ordered) (key : String) :
    (tariff.bind key price).Ordered := by
  induction tariff with
  | nil => exact .cons bound .nil nofun
  | cons entry rest kept =>
      obtain ⟨first, other⟩ := entry
      obtain ⟨known, ordered, above⟩ := ordered_cons_iff.mp ordered
      rw [Tariff.bind]
      by_cases before : key < first
      · rw [if_pos before]
        refine .cons bound (.cons known ordered above) ?_
        exact List.forall_mem_cons.mpr
          ⟨before, fun entry inside => before.trans (above entry inside)⟩
      rw [if_neg before]
      by_cases same : key = first
      · rw [if_pos same, same]
        exact .cons bound ordered above
      · have after : first < key := lt_of_le_of_ne (not_lt.mp before) (Ne.symm same)
        rw [if_neg same]
        refine .cons known (kept ordered) fun entry inside => ?_
        rcases mem_bind inside with rfl | inside
        · exact after
        · exact above entry inside

/-- The entries of an object are bound one after another. -/
theorem ofBindings_eq_foldl (bindings : List (String × Price)) :
    ofBindings bindings =
      bindings.foldl (fun (tariff : Tariff) entry => tariff.bind entry.1 entry.2) [] :=
  rfl

/-- What is bound in any order comes out in order. -/
theorem ordered_ofBindings {bindings : List (String × Price)}
    (each : ∀ entry ∈ bindings, entry.2.Ordered) : (ofBindings bindings).Ordered := by
  have kept : ∀ {tariff : Tariff}, tariff.Ordered →
      Tariff.Ordered
        (bindings.foldl (fun (tariff : Tariff) entry => tariff.bind entry.1 entry.2) tariff) := by
    induction bindings with
    | nil => exact fun ordered => ordered
    | cons first rest further =>
        obtain ⟨one, others⟩ := List.forall_mem_cons.mp each
        exact fun ordered => further others (ordered.bind one first.1)
  rw [ofBindings_eq_foldl]
  exact kept .nil

/-- A key above all others is bound at the end. -/
theorem bind_eq_append (below : ∀ entry ∈ tariff, entry.1 < key) :
    tariff.bind key price = tariff ++ [(key, price)] := by
  induction tariff with
  | nil => rfl
  | cons first rest last =>
      obtain ⟨one, others⟩ := List.forall_mem_cons.mp below
      rw [bind, if_neg one.not_gt, if_neg one.ne', last others]
      rfl

/-- Bindings that are in order already are the tariff itself. -/
theorem Ordered.ofBindings_eq (ordered : tariff.Ordered) : ofBindings tariff = tariff := by
  have appended : ∀ {front : Tariff}, (∀ entry ∈ front, ∀ other ∈ tariff, entry.1 < other.1) →
      tariff.foldl (fun (tariff : Tariff) entry => tariff.bind entry.1 entry.2) front =
        front ++ tariff := by
    induction tariff with
    | nil => exact fun _ => (List.append_nil _).symm
    | cons entry rest further =>
        intro front below
        obtain ⟨key, price⟩ := entry
        obtain ⟨_, ordered, above⟩ := ordered_cons_iff.mp ordered
        have last : front.bind key price = front ++ [(key, price)] :=
          bind_eq_append fun entry inside => below entry inside _ List.mem_cons_self
        rw [List.foldl_cons, last, further ordered, List.append_assoc, List.singleton_append]
        intro entry inside other later
        rcases List.mem_append.mp inside with earlier | same
        · exact below entry earlier other (List.mem_cons_of_mem _ later)
        · rw [List.mem_singleton.mp same]
          exact above other later
  rw [ofBindings_eq_foldl]
  exact appended nofun

end Tariff

/-! ## Reading what was written -/

namespace Json

theorem skipBlanks_cons {c : Char} (solid : isBlank c = false) (rest : List Char) :
    skipBlanks (c :: rest) = c :: rest :=
  List.dropWhile_cons_of_neg (by rw [solid]; decide)

theorem isBlank_of_isDigit {c : Char} (digit : c.isDigit = true) : isBlank c = false := by
  simp only [isBlank, Bool.or_eq_false_iff, decide_eq_false_iff_not]
  refine ⟨⟨⟨?_, ?_⟩, ?_⟩, ?_⟩ <;> rintro rfl <;> exact absurd digit (by decide)

/-- What is written of a price does not begin with a blank. -/
theorem skipBlanks_writePrice (p : Price) (rest : List Char) :
    skipBlanks (writePrice p ++ rest) = writePrice p ++ rest := by
  cases p with
  | flat gas =>
      obtain ⟨head, tail, digits, digit⟩ := naturalText_eq_digit_cons gas.units
      rw [writePrice, digits]
      exact skipBlanks_cons (isBlank_of_isDigit digit) _
  | tariff entries =>
      rw [writePrice]
      exact skipBlanks_cons (by decide) _

/-- An entry is read as the key that was quoted and the price behind the colon. -/
theorem binding_quote (value : Parser Price) (key : String) {text : List Char}
    (solid : skipBlanks text = text) :
    binding value (quote key ++ ':' :: text) =
      (value text).map fun (price, rest) => ((key, price), skipBlanks rest) := by
  have first : skipBlanks (quote key ++ ':' :: text) = quote key ++ ':' :: text :=
    skipBlanks_cons (by decide) _
  have colon : skipBlanks (':' :: text) = ':' :: text := skipBlanks_cons (by decide) text
  rw [binding, first, string_quote]
  simp only [Option.bind_eq_bind, Option.bind_some, colon, solid]
  cases value text <;> rfl

section

variable {value : Parser Price} {key : String} {p : Price} {text rest : List Char} {limit : Nat}

/-- The last entry, in front of the closing brace. -/
theorem bindings_last (solid : skipBlanks text = text) (read : value text = some (p, '}' :: rest)) :
    bindings value (limit + 1) (quote key ++ ':' :: text) = some ([(key, p)], rest) := by
  have brace : skipBlanks ('}' :: rest) = '}' :: rest := skipBlanks_cons (by decide) rest
  simp only [bindings, binding_quote value key solid, read, Option.map_some, brace,
    Option.bind_eq_bind, Option.bind_some]
  rfl

/-- An entry in front of others. -/
theorem bindings_comma (solid : skipBlanks text = text)
    (read : value text = some (p, ',' :: rest)) :
    bindings value (limit + 1) (quote key ++ ':' :: text) =
      (bindings value limit rest).map fun (others, rest) => ((key, p) :: others, rest) := by
  have comma : skipBlanks (',' :: rest) = ',' :: rest := skipBlanks_cons (by decide) rest
  simp only [bindings, binding_quote value key solid, read, Option.map_some, comma,
    Option.bind_eq_bind, Option.bind_some]
  cases bindings value limit rest <;> rfl

/-- Entries are not read where the price of the first one is not. -/
theorem bindings_unread (solid : skipBlanks text = text) (unread : value text = none) :
    bindings value (limit + 1) (quote key ++ ':' :: text) = none := by
  simp only [bindings, binding_quote value key solid, unread, Option.map_none,
    Option.bind_eq_bind, Option.bind_none]

end

/-- The last entry is written without a comma. -/
theorem writeEntries_last (key : String) (p : Price) (rest : List Char) :
    writeEntries [(key, p)] ++ rest = quote key ++ ':' :: (writePrice p ++ rest) := by
  simp only [writeEntries, List.append_assoc, List.cons_append]

/-- There is a comma behind each entry but the last one. -/
theorem writeEntries_cons (key : String) (p : Price) {others : Tariff} (more : others ≠ [])
    (rest : List Char) :
    writeEntries ((key, p) :: others) ++ rest =
      quote key ++ ':' :: (writePrice p ++ ',' :: (writeEntries others ++ rest)) := by
  cases others with
  | nil => exact absurd rfl more
  | cons next others => simp only [writeEntries, List.append_assoc, List.cons_append]

/-- Each entry takes up at least one character. -/
theorem length_le_writeEntries (entries : Tariff) :
    entries.length ≤ (writeEntries entries).length := by
  induction entries with
  | nil => exact Nat.le_refl 0
  | cons entry others long =>
      obtain ⟨key, p⟩ := entry
      by_cases last : others = []
      · have written := congrArg List.length (writeEntries_last key p [])
        rw [last]
        simp only [List.append_nil, List.length_append, List.length_cons, List.length_nil]
          at written ⊢
        omega
      · have written := congrArg List.length (writeEntries_cons key p last [])
        simp only [List.append_nil, List.length_append, List.length_cons] at written ⊢
        omega

/-- An object is read as the tariff of the entries that were written. -/
theorem object_writeEntries {value : Parser Price} {entries : Tariff} (rest : List Char) :
    object value (writeEntries entries ++ '}' :: rest) =
      if entries = [] then some ([], rest)
      else
        (bindings value (writeEntries entries ++ '}' :: rest).length
          (writeEntries entries ++ '}' :: rest)).map
            fun (found, rest) => (Tariff.ofBindings found, rest) := by
  by_cases empty : entries = []
  · rw [if_pos empty, empty]
    rfl
  · obtain ⟨⟨key, p⟩, others, rfl⟩ := List.exists_cons_of_ne_nil empty
    obtain ⟨tail, quoted⟩ : ∃ tail,
        writeEntries ((key, p) :: others) ++ '}' :: rest = '"' :: tail := by
      by_cases last : others = []
      · exact ⟨_, last ▸ writeEntries_last key p ('}' :: rest)⟩
      · exact ⟨_, writeEntries_cons key p last ('}' :: rest)⟩
    have solid : skipBlanks ('"' :: tail) = '"' :: tail := skipBlanks_cons (by decide) tail
    have opened : object value ('"' :: tail) =
        (bindings value ('"' :: tail).length ('"' :: tail)).bind
          fun (found, rest) => some (Tariff.ofBindings found, rest) := by
      rw [object, solid]
      rfl
    rw [if_neg empty, quoted, opened]
    cases bindings value ('"' :: tail).length ('"' :: tail) <;> rfl

theorem endsNumber_cons {c : Char} (noDigit : c.isDigit = false) (rest : List Char) :
    EndsNumber (c :: rest) := by
  rintro _ ⟨⟩
  exact noDigit

/-- A number has no levels. -/
theorem price_flat (gas : Gas) (levels : Nat) {rest : List Char} (ends : EndsNumber rest) :
    price levels (writePrice (.flat gas) ++ rest) = some (.flat gas, rest) := by
  have read := number_naturalText gas ends
  rw [writePrice]
  cases levels with
  | zero =>
      rw [price, read]
      rfl
  | succ levels =>
      obtain ⟨head, tail, digits, digit⟩ := naturalText_eq_digit_cons gas.units
      have noBrace : ∀ others, naturalText gas.units ++ rest = '{' :: others → False := by
        rw [digits]
        rintro others ⟨⟩
        exact absurd digit (by decide)
      rw [price.eq_3 _ _ noBrace, read]
      rfl

mutual

/-- **A price is read back from its text**, unless it has too many levels. -/
theorem price_writePrice : (p : Price) → p.Ordered → (levels : Nat) → {rest : List Char} →
    EndsNumber rest →
    price levels (writePrice p ++ rest) = if p.levels ≤ levels then some (p, rest) else none
  | .flat gas, _, levels, rest, ends => by
      rw [price_flat gas levels ends, Price.levels, if_pos (Nat.zero_le levels)]
  | .tariff entries, .tariff ordered, 0, rest, _ => by
      have deep := Tariff.levels_pos entries
      rw [Price.levels, if_neg (by omega)]
      rfl
  | .tariff entries, .tariff ordered, levels + 1, rest, _ => by
      have text : writePrice (.tariff entries) ++ rest =
          '{' :: (writeEntries entries ++ '}' :: rest) := by
        simp only [writePrice, List.append_assoc, List.cons_append, List.nil_append]
      rw [text, price, object_writeEntries, Price.levels]
      by_cases empty : entries = []
      · rw [empty, Tariff.levels, if_pos rfl, if_pos (by omega)]
        rfl
      · have long := length_le_writeEntries entries
        have enough : entries.length ≤ (writeEntries entries ++ '}' :: rest).length := by
          rw [List.length_append]
          omega
        rw [if_neg empty, bindings_writeEntries entries ordered empty levels _ enough rest]
        by_cases fits : Tariff.levels entries ≤ levels + 1
        · rw [if_pos fits, if_pos fits]
          simp only [Option.map_some, ordered.ofBindings_eq]
        · rw [if_neg fits, if_neg fits]
          rfl

/-- The entries of a tariff are read back as they were, if they are not nested too deeply. -/
theorem bindings_writeEntries : (entries : Tariff) → entries.Ordered → entries ≠ [] →
    (levels limit : Nat) → entries.length ≤ limit → (rest : List Char) →
    bindings (price levels) limit (writeEntries entries ++ '}' :: rest) =
      if entries.levels ≤ levels + 1 then some (entries, rest) else none
  | [], _, nonempty, _, _, _, _ => absurd rfl nonempty
  | [(key, p)], .cons known _ _, _, levels, limit + 1, _, rest => by
      have ends : EndsNumber ('}' :: rest) := endsNumber_cons (by decide) rest
      have one := price_writePrice p known levels ends
      have solid := skipBlanks_writePrice p ('}' :: rest)
      rw [writeEntries_last, Tariff.levels, Tariff.levels]
      by_cases fits : p.levels ≤ levels
      · rw [if_pos fits] at one
        rw [bindings_last solid one, if_pos (by omega)]
      · rw [if_neg fits] at one
        rw [bindings_unread solid one, if_neg (by omega)]
  | (key, p) :: next :: others, .cons known ordered _, _, levels, limit + 1, enough, rest => by
      have ends : EndsNumber (',' :: (writeEntries (next :: others) ++ '}' :: rest)) :=
        endsNumber_cons (by decide) _
      have one := price_writePrice p known levels ends
      have solid := skipBlanks_writePrice p (',' :: (writeEntries (next :: others) ++ '}' :: rest))
      have further := bindings_writeEntries (next :: others) ordered nofun levels limit
        (Nat.le_of_succ_le_succ enough) rest
      rw [writeEntries_cons key p (List.cons_ne_nil next others), Tariff.levels]
      by_cases fits : p.levels ≤ levels
      · rw [if_pos fits] at one
        rw [bindings_comma solid one, further]
        by_cases deeper : Tariff.levels (next :: others) ≤ levels + 1
        · rw [if_pos deeper, if_pos (by omega)]
          rfl
        · rw [if_neg deeper, if_neg (by omega)]
          rfl
      · rw [if_neg fits] at one
        rw [bindings_unread solid one, if_neg (by omega)]

end

/-! ## What is read -/

/-- A parser whose prices have their keys in order. -/
def ReadsOrdered (value : Parser Price) : Prop :=
  ∀ {text rest : List Char} {p : Price}, value text = some (p, rest) → p.Ordered

variable {value : Parser Price} {text rest : List Char}

/-- Where prices are read in order, so are the entries of an object. -/
theorem ReadsOrdered.bindings (sound : ReadsOrdered value) {limit : Nat}
    {found : List (String × Price)} (read : bindings value limit text = some (found, rest)) :
    ∀ entry ∈ found, entry.2.Ordered := by
  induction limit generalizing text found with
  | zero => cases read
  | succ limit each =>
      obtain ⟨⟨⟨key, p⟩, after⟩, first, read⟩ := Option.bind_eq_some_iff.mp read
      have known : p.Ordered := by
        obtain ⟨⟨_, behind⟩, _, further⟩ := Option.bind_eq_some_iff.mp first
        simp only at further
        split at further
        · obtain ⟨⟨_, _⟩, price, put⟩ := Option.bind_eq_some_iff.mp further
          cases put
          exact sound price
        · cases further
      simp only at read
      split at read
      · cases read
        exact List.forall_mem_singleton.mpr known
      · obtain ⟨⟨others, _⟩, further, put⟩ := Option.bind_eq_some_iff.mp read
        cases put
        exact List.forall_mem_cons.mpr ⟨known, each further⟩
      · cases read

/-- What is read of an object is in order. -/
theorem ReadsOrdered.object (sound : ReadsOrdered value) {entries : Tariff}
    (read : object value text = some (entries, rest)) : entries.Ordered := by
  unfold Json.object at read
  split at read
  · cases read
    exact .nil
  · obtain ⟨⟨found, _⟩, listed, put⟩ := Option.bind_eq_some_iff.mp read
    cases put
    exact Tariff.ordered_ofBindings (sound.bindings listed)

/-- What is read of a price is in order. -/
theorem readsOrdered_price (levels : Nat) : ReadsOrdered (price levels) := by
  induction levels with
  | zero =>
      intro text rest p read
      obtain ⟨⟨gas, _⟩, _, put⟩ := Option.map_eq_some_iff.mp read
      cases put
      exact .flat gas
  | succ levels sound =>
      intro text rest p read
      by_cases opens : ∃ inside, text = '{' :: inside
      · obtain ⟨inside, rfl⟩ := opens
        obtain ⟨⟨entries, _⟩, inner, put⟩ := Option.map_eq_some_iff.mp read
        cases put
        exact .tariff (sound.object inner)
      · rw [price.eq_3 _ _ fun inside same => opens ⟨inside, same⟩] at read
        obtain ⟨⟨gas, _⟩, _, put⟩ := Option.map_eq_some_iff.mp read
        cases put
        exact .flat gas

end Json

namespace Tariff

variable {tariff : Tariff}

/-- **Whatever is read has its keys in order.** -/
theorem ordered_of_ofJson? {text : String} (read : ofJson? text = some tariff) :
    tariff.Ordered := by
  obtain ⟨⟨p, rest⟩, price, read⟩ := Option.bind_eq_some_iff.mp read
  have known := Json.readsOrdered_price _ price
  simp only at read
  split at read
  · cases read
    cases known
    assumption
  · cases read

/-- **Tariffs survive serialisation**, just those that have no more levels than can be read. -/
theorem ofJson?_toJson (ordered : tariff.Ordered) :
    ofJson? tariff.toJson = some tariff ↔ tariff.levels ≤ Json.maxLevels := by
  have ends : Json.EndsNumber [] := nofun
  have read := Json.price_writePrice (.tariff tariff) (.tariff ordered) Json.maxLevels ends
  have solid := Json.skipBlanks_writePrice (.tariff tariff) []
  rw [List.append_nil] at read solid
  rw [ofJson?, toJson, String.toList_ofList, solid, read, Price.levels]
  by_cases fits : tariff.levels ≤ Json.maxLevels
  · rw [if_pos fits]
    exact iff_of_true rfl fits
  · rw [if_neg fits]
    exact iff_of_false nofun fits

/-- Keys that need to be written with care, and the greatest amount. -/
def oddTariff : Tariff :=
  [("", .tariff []), ("\x00\t\"\\", .flat ⟨gasLimit, le_rfl⟩),
    ("a/b", .tariff [("DEFAULT", .flat 0), ("ключ", .tariff [("\n", .flat 0)])])]

/-- A tariff with keys that need escapes, and with tables in it. -/
theorem ofJson?_toJson_oddTariff :
    oddTariff.Ordered ∧ oddTariff.levels ≤ Json.maxLevels ∧
      ofJson? oddTariff.toJson = some oddTariff := by
  have inmost : Ordered [("\n", .flat 0)] := .cons (.flat 0) .nil nofun
  have inner : Ordered [("DEFAULT", .flat 0), ("ключ", .tariff [("\n", .flat 0)])] :=
    .cons (.flat 0) (.cons (.tariff inmost) .nil nofun) (by decide)
  have last : Ordered
      [("a/b", .tariff [("DEFAULT", .flat 0), ("ключ", .tariff [("\n", .flat 0)])])] :=
    .cons (.tariff inner) .nil nofun
  have ordered : oddTariff.Ordered :=
    .cons (.tariff .nil) (.cons (.flat _) last (by decide)) (by decide)
  have fits : oddTariff.levels ≤ Json.maxLevels := by decide
  exact ⟨ordered, fits, (ofJson?_toJson ordered).mpr fits⟩

end Tariff

end WasmGas

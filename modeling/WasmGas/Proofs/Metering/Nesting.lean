import WasmGas.Proofs.Metering.ControlFlow
import WasmGas.Proofs.Metering.Import
import WasmGas.Proofs.Metering.Layout

/-! # Nested blocks

In code whose blocks nest (`Nested`) the parts of a block that control looks for are those
that match its begin (`partOf?_of_block`, `partOf?_of_alternatives`). For whatever nests leaves
open what was open before (`leavesOpen_of_nested`). Metering puts instructions only between
the others (`Padded`), so that the blocks of a function still nest
(`Meter.MetersBody.nestedBody`).
-/

namespace WasmGas

variable {code : List Instruction}

/-! ## The parts of a block -/

/-- Whether the instruction belongs to a block as its `end` or its `else`. -/
def Instruction.partsBlock (instruction : Instruction) : Bool :=
  ["end", "else"].contains instruction.name

/-- Code in which each block that begins also ends, and only an `if` has an `else`. -/
inductive Nested : List Instruction → Prop
  | nil : Nested []
  | cons {head : Instruction} {tail : List Instruction} :
      head.opensBlock = false → head.partsBlock = false → Nested tail → Nested (head :: tail)
  | block {opener close : Instruction} {inner rest : List Instruction} :
      opener.opensBlock = true → close.name = "end" → Nested inner → Nested rest →
        Nested (opener :: (inner ++ close :: rest))
  | alternatives {opener other close : Instruction} {inner otherwise rest : List Instruction} :
      opener.name = "if" → other.name = "else" → close.name = "end" →
        Nested inner → Nested otherwise → Nested rest →
          Nested (opener :: (inner ++ other :: (otherwise ++ close :: rest)))

/-- Behind its beginning a block is open. -/
theorem openBlocks_succ_of_opensBlock {position : Nat} {instruction : Instruction}
    (there : code[position]? = some instruction) (opens : instruction.opensBlock = true) :
    openBlocks code (position + 1) = position :: openBlocks code position := by
  rw [openBlocks, there, Option.any_some, if_pos opens]

/-- Behind its end a block is closed. -/
theorem openBlocks_succ_of_end {position : Nat} {instruction : Instruction}
    (there : code[position]? = some instruction) (named : instruction.name = "end") :
    openBlocks code (position + 1) = (openBlocks code position).tail := by
  simp [openBlocks, standsAt, there, Instruction.opensBlock, named]

/-- A block stays open behind its second part. -/
theorem openBlocks_succ_of_else {position : Nat} {instruction : Instruction}
    (there : code[position]? = some instruction) (named : instruction.name = "else") :
    openBlocks code (position + 1) = openBlocks code position := by
  simp [openBlocks, standsAt, there, Instruction.opensBlock, named]

/-- No other instruction opens or closes a block. -/
theorem openBlocks_succ_of_straight {position : Nat} {instruction : Instruction}
    (there : code[position]? = some instruction) (opens : instruction.opensBlock = false)
    (parts : instruction.partsBlock = false) :
    openBlocks code (position + 1) = openBlocks code position := by
  simp only [Instruction.partsBlock, List.contains_cons, Bool.or_eq_false_iff] at parts
  simp [openBlocks, standsAt, there, opens, parts.1]

/-- A block was opened before. -/
theorem lt_of_mem_openBlocks {position block : Nat} (opened : block ∈ openBlocks code position) :
    block < position := by
  induction position with
  | zero => cases opened
  | succ position below =>
      rw [openBlocks] at opened
      split at opened
      · rcases List.mem_cons.mp opened with rfl | earlier
        · exact Nat.lt_succ_self _
        · exact Nat.lt_succ_of_lt (below earlier)
      split at opened
      · exact Nat.lt_succ_of_lt (below (List.mem_of_mem_tail opened))
      · exact Nat.lt_succ_of_lt (below opened)

/-- A block that is closed stays closed. -/
theorem not_mem_openBlocks {block start position : Nat} (begins : block < start)
    (closed : block ∉ openBlocks code start) (later : start ≤ position) :
    block ∉ openBlocks code position := by
  induction later with
  | refl => exact closed
  | @step position later stays =>
      intro opened
      rw [openBlocks] at opened
      split at opened
      · rcases List.mem_cons.mp opened with rfl | earlier
        · exact absurd begins (Nat.not_lt.mpr later)
        · exact stays earlier
      split at opened
      · exact stays (List.mem_of_mem_tail opened)
      · exact stays opened

/-- What begins some rest stands at its place. -/
theorem getElem?_of_drop {start : Nat} {head : Instruction} {rest : List Instruction}
    (there : code.drop start = head :: rest) :
    code[start]? = some head ∧ code.drop (start + 1) = rest := by
  constructor
  · rw [← List.head?_drop, there, List.head?_cons]
  · rw [← List.tail_drop, there, List.tail_cons]

/-- A rest can be taken apart further. -/
theorem drop_of_drop {start : Nat} {inner rest : List Instruction}
    (there : code.drop start = inner ++ rest) : code.drop (start + inner.length) = rest := by
  rw [← List.drop_drop, there, List.drop_left]

/-- Whether each `end` and each `else` from one position up to another belongs to a block
that begins at some place or later. -/
def OwnParts (code : List Instruction) (place start stop : Nat) : Prop :=
  ∀ position, start ≤ position → position < stop → code[position]?.any (·.partsBlock) = true →
    ∃ block, place ≤ block ∧ (openBlocks code position).head? = some block

namespace OwnParts

variable {place start middle stop : Nat}

theorem append (first : OwnParts code place start middle)
    (second : OwnParts code place middle stop) : OwnParts code place start stop := by
  intro position after before
  by_cases early : position < middle
  · exact first position after early
  · exact second position (Nat.le_of_not_lt early) before

theorem mono {earlier : Nat} (ordered : earlier ≤ place) (own : OwnParts code place start stop) :
    OwnParts code earlier start stop := by
  intro position after before parts
  obtain ⟨block, later, head⟩ := own position after before parts
  exact ⟨block, Nat.le_trans ordered later, head⟩

/-- A single instruction that is no part of a block. -/
theorem of_straight {instruction : Instruction} (there : code[start]? = some instruction)
    (straight : instruction.partsBlock = false) : OwnParts code place start (start + 1) := by
  intro position after before parts
  obtain rfl : position = start := by omega
  rw [there, Option.any_some, straight] at parts
  cases parts

/-- A single instruction in front of which a block is open. -/
theorem of_head {block : Nat} {others : List Nat} (later : place ≤ block)
    (opened : openBlocks code start = block :: others) :
    OwnParts code place start (start + 1) := by
  intro position after before _
  obtain rfl : position = start := by omega
  exact ⟨block, later, by rw [opened, List.head?_cons]⟩

end OwnParts

/-- What begins a block is no part of it. -/
theorem Instruction.partsBlock_of_opensBlock {instruction : Instruction}
    (opens : instruction.opensBlock = true) : instruction.partsBlock = false := by
  simp only [opensBlock, List.contains_iff_mem, List.mem_cons, List.not_mem_nil, or_false] at opens
  rcases opens with named | named | named <;> simp [partsBlock, named]

/-- Whether instructions, wherever they stand in the code, leave open what was open and close
only what they open. -/
def LeavesOpen (code inner : List Instruction) : Prop :=
  ∀ ⦃start : Nat⦄ ⦃rest : List Instruction⦄, code.drop start = inner ++ rest →
    openBlocks code (start + inner.length) = openBlocks code start ∧
      OwnParts code start start (start + inner.length)

/-- What comes behind such instructions stands in the same block as they do. -/
theorem LeavesOpen.behind {inner rest : List Instruction} {last : Instruction}
    (leaves : LeavesOpen code inner) {start block : Nat} {others : List Nat}
    (there : code.drop start = inner ++ last :: rest)
    (opened : openBlocks code start = block :: others) :
    code[start + inner.length]? = some last ∧ code.drop (start + inner.length + 1) = rest ∧
      openBlocks code (start + inner.length) = block :: others ∧
      OwnParts code block start (start + inner.length + 1) := by
  obtain ⟨same, own⟩ := leaves there
  obtain ⟨found, further⟩ := getElem?_of_drop (drop_of_drop there)
  rw [opened] at same
  have below : block < start := lt_of_mem_openBlocks (opened ▸ List.mem_cons_self)
  refine ⟨found, further, same, ?_⟩
  exact (own.mono (Nat.le_of_lt below)).append (.of_head (Nat.le_refl block) same)

/-- The induction carries the parts along: a block has its own ones, and what nests in it has
others, that begin later. -/
theorem leavesOpen_of_nested {inner : List Instruction} (nested : Nested inner) :
    LeavesOpen code inner := by
  induction nested with
  | nil =>
      intro start rest _
      refine ⟨rfl, fun position after before => ?_⟩
      exact absurd before (Nat.not_lt.mpr after)
  | cons opens parts _ leaves =>
      intro start rest there
      obtain ⟨first, behind⟩ := getElem?_of_drop there
      obtain ⟨same, own⟩ := leaves behind
      rw [List.length_cons, Nat.add_comm _ 1, ← Nat.add_assoc, same]
      refine ⟨openBlocks_succ_of_straight first opens parts, ?_⟩
      exact (OwnParts.of_straight first parts).append (own.mono (Nat.le_succ start))
  | @block opener close inner others opens named _ _ leaves leavesOthers =>
      intro start rest there
      rw [List.cons_append, List.append_assoc, List.cons_append] at there
      obtain ⟨first, behind⟩ := getElem?_of_drop there
      -- The block is open for its inner code, and behind it what was open before is so again.
      have opened := openBlocks_succ_of_opensBlock first opens
      obtain ⟨last, further, same, own⟩ := leaves.behind behind opened
      have closed := openBlocks_succ_of_end last named
      rw [same, List.tail_cons] at closed
      obtain ⟨sameOthers, ownOthers⟩ := leavesOthers further
      have length : start + (opener :: (inner ++ close :: others)).length =
          start + 1 + inner.length + 1 + others.length := by
        simp only [List.length_cons, List.length_append]
        omega
      rw [length, sameOthers, closed]
      refine ⟨rfl, ?_⟩
      have straight : OwnParts code start start (start + 1) :=
        .of_straight first (Instruction.partsBlock_of_opensBlock opens)
      exact (straight.append own).append (ownOthers.mono (by omega))
  | @alternatives opener other close inner otherwise others ifs elses named _ _ _ leaves
      leavesOther leavesOthers =>
      intro start rest there
      rw [List.cons_append, List.append_assoc, List.cons_append, List.append_assoc,
        List.cons_append] at there
      obtain ⟨first, behind⟩ := getElem?_of_drop there
      have opens : opener.opensBlock = true := by simp [Instruction.opensBlock, ifs]
      have opened := openBlocks_succ_of_opensBlock first opens
      obtain ⟨middle, between, same, own⟩ := leaves.behind behind opened
      -- The second part begins where the first one has ended, with the same block open.
      have goesOn := openBlocks_succ_of_else middle elses
      rw [same] at goesOn
      obtain ⟨last, further, sameOther, ownOther⟩ := leavesOther.behind between goesOn
      have closed := openBlocks_succ_of_end last named
      rw [sameOther, List.tail_cons] at closed
      obtain ⟨sameOthers, ownOthers⟩ := leavesOthers further
      have length : start + (opener :: (inner ++ other :: (otherwise ++ close :: others))).length =
          start + 1 + inner.length + 1 + otherwise.length + 1 + others.length := by
        simp only [List.length_cons, List.length_append]
        omega
      rw [length, sameOthers, closed]
      refine ⟨rfl, ?_⟩
      have straight : OwnParts code start start (start + 1) :=
        .of_straight first (Instruction.partsBlock_of_opensBlock opens)
      exact ((straight.append own).append ownOther).append (ownOthers.mono (by omega))

/-- None of these parts belongs to a block that begins earlier. -/
theorem OwnParts.head?_ne {place start stop block position : Nat} {name : String}
    (own : OwnParts code place start stop) (earlier : block < place) (after : start ≤ position)
    (before : position < stop) (parts : ["end", "else"].contains name = true)
    (stands : standsAt code name position = true) :
    (openBlocks code position).head? ≠ some block := by
  obtain ⟨instruction, there, same⟩ := (Option.any_eq_true _ _).mp stands
  have isPart : code[position]?.any (·.partsBlock) = true := by
    refine (Option.any_eq_true _ _).mpr ⟨instruction, there, ?_⟩
    rwa [Instruction.partsBlock, eq_of_beq same]
  obtain ⟨other, later, head⟩ := own position after before isPart
  rw [head]
  rintro ⟨⟩
  exact absurd earlier (Nat.not_lt.mpr later)

/-- A part of a block is the first one of its name that stands directly in the block. -/
theorem partOf?_eq_some {name : String} {block position : Nat}
    (stands : standsAt code name position = true)
    (innermost : (openBlocks code position).head? = some block)
    (first : ∀ earlier, block < earlier → earlier < position →
      standsAt code name earlier = true → (openBlocks code earlier).head? ≠ some block) :
    partOf? code name block = some position := by
  rw [partOf?, List.find?_range_eq_some]
  obtain ⟨_, there, _⟩ := (Option.any_eq_true _ _).mp stands
  obtain ⟨inside, _⟩ := List.getElem?_eq_some_iff.mp there
  refine ⟨by simp [stands, innermost], List.mem_range.mpr inside, fun earlier before => ?_⟩
  by_cases directly : (openBlocks code earlier).head? = some block
  · by_cases other : standsAt code name earlier = true
    · have below := lt_of_mem_openBlocks (List.mem_of_mem_head? directly)
      exact absurd directly (first earlier below before other)
    · simp [Bool.eq_false_iff.mpr other]
  · simp [directly]

/-- A block without an `else` ends where its content does. -/
theorem partOf?_of_block {block : Nat} {opener close : Instruction}
    {inner rest : List Instruction}
    (there : code.drop block = opener :: (inner ++ close :: rest))
    (opens : opener.opensBlock = true) (named : close.name = "end") (nested : Nested inner) :
    partOf? code "end" block = some (block + 1 + inner.length) ∧
      partOf? code "else" block = none := by
  obtain ⟨first, behind⟩ := getElem?_of_drop there
  have opened := openBlocks_succ_of_opensBlock first opens
  obtain ⟨_, own⟩ := leavesOpen_of_nested nested behind
  obtain ⟨last, _, same, _⟩ := (leavesOpen_of_nested nested).behind behind opened
  constructor
  · apply partOf?_eq_some
    · rw [standsAt, last, Option.any_some, named]
      rfl
    · rw [same, List.head?_cons]
    · intro position after before
      exact own.head?_ne (Nat.lt_succ_self block) after before (by decide)
  · have closed := openBlocks_succ_of_end last named
    rw [same, List.tail_cons] at closed
    have gone : block ∉ openBlocks code (block + 1 + inner.length + 1) := by
      rw [closed]
      exact fun opened => Nat.lt_irrefl block (lt_of_mem_openBlocks opened)
    rw [partOf?, List.find?_range_eq_none]
    intro position _
    simp only [Bool.not_eq_eq_eq_not, Bool.not_true, Bool.and_eq_false_iff, beq_eq_false_iff_ne]
    by_cases stands : standsAt code "else" position = true
    · refine Or.inr fun head => ?_
      have opened := List.mem_of_mem_head? head
      have after := lt_of_mem_openBlocks opened
      -- Before its `end` other blocks are the innermost, and behind it the block is closed.
      rcases Nat.lt_trichotomy position (block + 1 + inner.length) with before | rfl | beyond
      · exact own.head?_ne (Nat.lt_succ_self block) after before (by decide) stands head
      · rw [standsAt, last, Option.any_some, named] at stands
        cases stands
      · exact not_mem_openBlocks (by omega) gone beyond opened
    · exact Or.inl (eq_false_of_ne_true stands)

/-- An `if` with an `else` has it where the first alternative ends, and ends where the second
one does. -/
theorem partOf?_of_alternatives {block : Nat} {opener other close : Instruction}
    {inner otherwise rest : List Instruction}
    (there : code.drop block = opener :: (inner ++ other :: (otherwise ++ close :: rest)))
    (ifs : opener.name = "if") (elses : other.name = "else") (named : close.name = "end")
    (nested : Nested inner) (nestedOther : Nested otherwise) :
    partOf? code "else" block = some (block + 1 + inner.length) ∧
      partOf? code "end" block = some (block + 1 + inner.length + 1 + otherwise.length) := by
  obtain ⟨first, behind⟩ := getElem?_of_drop there
  have opened := openBlocks_succ_of_opensBlock first (by simp [Instruction.opensBlock, ifs])
  obtain ⟨_, own⟩ := leavesOpen_of_nested nested behind
  obtain ⟨middle, between, same, _⟩ := (leavesOpen_of_nested nested).behind behind opened
  have goesOn := openBlocks_succ_of_else middle elses
  rw [same] at goesOn
  obtain ⟨_, ownOther⟩ := leavesOpen_of_nested nestedOther between
  obtain ⟨last, _, sameOther, _⟩ := (leavesOpen_of_nested nestedOther).behind between goesOn
  constructor
  · apply partOf?_eq_some
    · rw [standsAt, middle, Option.any_some, elses]
      rfl
    · rw [same, List.head?_cons]
    · intro position after before
      exact own.head?_ne (Nat.lt_succ_self block) after before (by decide)
  · apply partOf?_eq_some
    · rw [standsAt, last, Option.any_some, named]
      rfl
    · rw [sameOther, List.head?_cons]
    · intro position after before stands
      rcases Nat.lt_trichotomy position (block + 1 + inner.length) with early | rfl | late
      · exact own.head?_ne (Nat.lt_succ_self block) after early (by decide) stands
      · rw [standsAt, middle, Option.any_some, elses] at stands
        cases stands
      · exact ownOther.head?_ne (by omega) late before (by decide) stands

/-! ## Metered code -/

namespace Nested

theorem append {inner rest : List Instruction} (first : Nested inner) (second : Nested rest) :
    Nested (inner ++ rest) := by
  induction first with
  | nil => exact second
  | cons opens parts _ appended => exact .cons opens parts appended
  | block opens named nested _ _ appended =>
      rw [List.cons_append, List.append_assoc, List.cons_append]
      exact .block opens named nested appended
  | alternatives ifs elses named nested nestedOther _ _ _ appended =>
      rw [List.cons_append, List.append_assoc, List.cons_append, List.append_assoc,
        List.cons_append]
      exact .alternatives ifs elses named nested nestedOther appended

/-- Nesting depends on names alone. -/
theorem map {inner : List Instruction} (nested : Nested inner)
    {change : Instruction → Instruction} (same : ∀ instruction, (change instruction).name =
      instruction.name) : Nested (inner.map change) := by
  have opens (instruction : Instruction) :
      (change instruction).opensBlock = instruction.opensBlock := by
    rw [Instruction.opensBlock, same, Instruction.opensBlock]
  have parts (instruction : Instruction) :
      (change instruction).partsBlock = instruction.partsBlock := by
    rw [Instruction.partsBlock, same, Instruction.partsBlock]
  induction nested with
  | nil => exact .nil
  | cons straight noPart _ mapped =>
      exact .cons ((opens _).trans straight) ((parts _).trans noPart) mapped
  | block begins named _ _ mapped mappedRest =>
      rw [List.map_cons, List.map_append, List.map_cons]
      exact .block ((opens _).trans begins) ((same _).trans named) mapped mappedRest
  | alternatives ifs elses named _ _ _ mapped mappedOther mappedRest =>
      rw [List.map_cons, List.map_append, List.map_cons, List.map_append, List.map_cons]
      exact .alternatives ((same _).trans ifs) ((same _).trans elses) ((same _).trans named) mapped
        mappedOther mappedRest

end Nested

/-- Code, and the same code after some instructions were put in front of others. What is put
there belongs to no block. -/
inductive Padded : List Instruction → List Instruction → Prop
  | nil : Padded [] []
  | keep (head : Instruction) {code padded : List Instruction} :
      Padded code padded → Padded (head :: code) (head :: padded)
  | put {extra head : Instruction} {code padded : List Instruction} :
      extra.opensBlock = false → extra.partsBlock = false → Padded (head :: code) padded →
        Padded (head :: code) (extra :: padded)

namespace Padded

theorem append {one other padded paddedOther : List Instruction} (first : Padded one padded)
    (second : Padded other paddedOther) : Padded (one ++ other) (padded ++ paddedOther) := by
  induction first with
  | nil => exact second
  | keep head _ appended => exact .keep head appended
  | put opens parts _ appended => exact .put opens parts appended

theorem refl (code : List Instruction) : Padded code code := by
  induction code with
  | nil => exact .nil
  | cons head _ same => exact .keep head same

/-- Code is found again around each of its instructions. What was put right in front of that
instruction comes apart from the rest. -/
theorem split {inner rest padded : List Instruction} {last : Instruction}
    (around : Padded (inner ++ last :: rest) padded) :
    ∃ paddedInner extras paddedRest, padded = paddedInner ++ (extras ++ last :: paddedRest) ∧
      Padded inner paddedInner ∧ Nested extras ∧ Padded rest paddedRest := by
  generalize whole : inner ++ last :: rest = code at around
  induction around generalizing inner with
  | nil => exact absurd whole (by simp)
  | keep head around found =>
      cases inner with
      | nil =>
          cases whole
          exact ⟨[], [], _, rfl, .nil, .nil, around⟩
      | cons first others =>
          cases whole
          obtain ⟨paddedInner, extras, paddedRest, rfl, kept, nested, keptRest⟩ := found rfl
          exact ⟨_ :: paddedInner, extras, paddedRest, rfl, kept.keep _, nested, keptRest⟩
  | put opens parts around found =>
      obtain ⟨paddedInner, extras, paddedRest, rfl, kept, nested, keptRest⟩ := found whole
      cases inner with
      | nil =>
          cases kept
          exact ⟨[], _ :: extras, paddedRest, rfl, .nil, .cons opens parts nested, keptRest⟩
      | cons first others =>
          exact ⟨_ :: paddedInner, extras, paddedRest, rfl, kept.put opens parts, nested, keptRest⟩

/-- Padding comes before the instruction that it pads. -/
theorem first {head : Instruction} {rest padded : List Instruction}
    (around : Padded (head :: rest) padded) :
    ∃ extras paddedRest, padded = extras ++ head :: paddedRest ∧ Nested extras ∧
      Padded rest paddedRest := by
  rw [← List.nil_append (head :: rest)] at around
  obtain ⟨_, extras, paddedRest, rfl, before, nested, kept⟩ := around.split
  cases before
  exact ⟨extras, paddedRest, rfl, nested, kept⟩

end Padded

/-- Nested code stays nested when it is padded. -/
theorem Nested.padded {inner padded : List Instruction} (nested : Nested inner)
    (around : Padded inner padded) : Nested padded := by
  induction nested generalizing padded with
  | nil =>
      cases around
      exact .nil
  | @cons head tail opens parts _ nested =>
      obtain ⟨extras, behind, rfl, straight, after⟩ := around.first
      exact straight.append (.cons opens parts (nested after))
  | @block opener close inner rest opens named _ _ nested nestedRest =>
      obtain ⟨extras, behind, rfl, straight, after⟩ := around.first
      obtain ⟨content, more, others, rfl, within, further, last⟩ := after.split
      have whole := (nested within).append further
      rw [← List.append_assoc content]
      exact straight.append (.block opens named whole (nestedRest last))
  | @alternatives opener other close inner otherwise rest ifs elses named _ _ _ nested nestedOther
      nestedRest =>
      obtain ⟨extras, behind, rfl, straight, after⟩ := around.first
      obtain ⟨content, more, others, rfl, within, further, middle⟩ := after.split
      obtain ⟨second, evenMore, remaining, rfl, between, again, last⟩ := middle.split
      have whole := (nested within).append further
      have wholeOther := (nestedOther between).append again
      rw [← List.append_assoc content, ← List.append_assoc second]
      exact straight.append (.alternatives ifs elses named whole wholeOther (nestedRest last))

/-- The code of a function: what nests, and the `end` of the function. -/
def NestedBody (code : List Instruction) : Prop :=
  ∃ inner close, code = inner ++ [close] ∧ close.name = "end" ∧ Nested inner

variable {meter : Meter}

/-- What is put in front of some code belongs to no block of it. -/
theorem Meter.Pays.padded {price : Gas} {charge : List Instruction}
    (pays : meter.Pays price charge) {run : List Instruction} (nonempty : run ≠ []) :
    Padded run (charge ++ run) := by
  obtain ⟨head, tail, rfl⟩ := List.exists_cons_of_ne_nil nonempty
  rcases pays.empty_or_call with ⟨_, rfl⟩ | ⟨constant, passes, rfl⟩
  · exact Padded.refl _
  · have named := passes.name_eq
    apply Padded.put (by rw [Instruction.opensBlock, named]; rfl)
      (by rw [Instruction.partsBlock, named]; rfl)
    exact (Padded.refl _).put rfl rfl

/-- Charges pad the runs that they are for. -/
theorem Meter.Charges.padded {carried : Gas} {layout : List ChargedRun}
    (charges : meter.Charges carried layout) (isRun : ∀ charged ∈ layout, IsRun charged.run) :
    Padded (layout.map (·.run)).flatten (layout.flatMap ChargedRun.code) := by
  induction layout generalizing carried with
  | nil => exact .nil
  | cons first others padded =>
      obtain ⟨pays, rest⟩ := charges
      obtain ⟨one, more⟩ := List.forall_mem_cons.mp isRun
      rw [List.map_cons, List.flatten_cons, List.flatMap_cons]
      exact (pays.padded one.ne_nil).append (padded rest more)

/-- **Metering keeps blocks nested.** -/
theorem Meter.MetersBody.nestedBody {signature : Signature} {body metered : FunctionBody}
    {layout : List ChargedRun} (meters : meter.MetersBody signature body metered layout)
    (nested : NestedBody body.code) : NestedBody metered.code := by
  obtain ⟨inner, close, whole, named, nested⟩ := nested
  have around : Padded (body.renumber meter.function).code metered.code := by
    rw [meters.code, ← meters.segments.flatten]
    exact meters.charges.padded fun charged listed =>
      meters.segments.isRun charged.run (List.mem_map_of_mem listed)
  have same := Instruction.name_renumber meter.function
  rw [FunctionBody.renumber, whole, List.map_append, List.map_singleton] at around
  obtain ⟨content, extras, behind, laidOut, within, further, last⟩ := around.split
  cases last
  refine ⟨content ++ extras, _, ?_, (same close).trans named, ?_⟩
  · rw [laidOut, List.append_assoc]
  · exact ((nested.map same).padded within).append further

end WasmGas

import WasmGas.Module.Instruction

/-! # Where control can go

The order in which the instructions of a body can come to be executed, as far as the code
alone tells. Blocks are found by their instructions: an `end` or an `else` belongs to the
innermost block that is open in front of it (`openBlocks`). A path is a list of positions that
control can take one after the other from the first one on (`Path`). Control leaves a
straight line only at a branch, and only for a place right behind one
(`next_or_behind_branch`).
-/

namespace WasmGas

namespace Instruction

/-- Whether the instruction begins a block. -/
def opensBlock (instruction : Instruction) : Bool :=
  ["block", "loop", "if"].contains instruction.name

/-- The labels in the immediate of a branch. -/
def labels (instruction : Instruction) : List UInt32 :=
  match instruction.immediate with
  | some (.index label) => [label]
  | some (.branchTable targets default) => targets ++ [default]
  | _ => []

end Instruction

/-- Whether an instruction of some name stands at a position. -/
def standsAt (code : List Instruction) (name : String) (position : Nat) : Bool :=
  code[position]?.any (·.name == name)

/-- Where the blocks begin that are open in front of a position, the innermost first. -/
def openBlocks (code : List Instruction) : (position : Nat) → List Nat
  | 0 => []
  | position + 1 =>
    if code[position]?.any (·.opensBlock) then position :: openBlocks code position
    else if standsAt code "end" position then (openBlocks code position).tail
    else openBlocks code position

/-- Where the `end` or the `else` of a block stands. -/
def partOf? (code : List Instruction) (name : String) (block : Nat) : Option Nat :=
  (List.range code.length).find? fun position =>
    standsAt code name position && (openBlocks code position).head? == some block

/-- The place behind a part of a block, if the block has that part. -/
def behind (code : List Instruction) (name : String) (block : Nat) : List Nat :=
  ((partOf? code name block).map (· + 1)).toList

/-- Where a branch to a label goes: for a loop behind its begin, for another block behind its
`end`. The label of the function leaves it. -/
def labelTargets (code : List Instruction) (position : Nat) (label : UInt32) : List Nat :=
  match (openBlocks code position)[label.toNat]? with
  | some block => if standsAt code "loop" block then [block + 1] else behind code "end" block
  | none => []

/-- Where control can be after an instruction. It goes on to the next one unless the
instruction says otherwise. -/
def successors (code : List Instruction) (position : Nat) : List Nat :=
  match code[position]? with
  | none => []
  | some instruction =>
    let branches := instruction.labels.flatMap (labelTargets code position)
    if instruction.name = "br" ∨ instruction.name = "br_table" then branches
    else if instruction.name = "br_if" then (position + 1) :: branches
    else if instruction.name = "if" then
      (position + 1) ::
        match partOf? code "else" position with
        | some other => [other + 1]
        | none => behind code "end" position
    else if instruction.name = "else" then
      (openBlocks code position).head?.toList.flatMap (behind code "end")
    else if instruction.name = "return" ∨ instruction.name = "unreachable" then []
    else if instruction.name = "end" ∧ openBlocks code position = [] then []
    else [position + 1]

/-- Positions that control takes one after the other from the first one on, the latest first. -/
inductive Path (code : List Instruction) : List Nat → Prop
  | start : 0 < code.length → Path code [0]
  | step {position next : Nat} {earlier : List Nat} :
      Path code (position :: earlier) → next ∈ successors code position → next < code.length →
        Path code (next :: position :: earlier)

namespace Path

variable {code : List Instruction}

theorem singleton_iff {position : Nat} :
    Path code [position] ↔ position = 0 ∧ 0 < code.length := by
  constructor
  · intro path
    cases path with
    | start some => exact ⟨rfl, some⟩
  · rintro ⟨rfl, some⟩
    exact .start some

/-- A path goes on to a successor. -/
theorem cons_cons_iff {position next : Nat} {earlier : List Nat} :
    Path code (next :: position :: earlier) ↔
      Path code (position :: earlier) ∧ next ∈ successors code position ∧ next < code.length := by
  constructor
  · intro path
    cases path with
    | step path listed inside => exact ⟨path, listed, inside⟩
  · rintro ⟨path, listed, inside⟩
    exact .step path listed inside

instance decidable : (positions : List Nat) → Decidable (Path code positions)
  | [] => .isFalse nofun
  | [_] => decidable_of_iff _ singleton_iff.symm
  | _ :: position :: earlier =>
    have := decidable (position :: earlier)
    decidable_of_iff _ cons_cons_iff.symm

end Path

/-- Whether a branch stands at a position. -/
def BranchAt (code : List Instruction) (position : Nat) : Prop :=
  ∃ instruction, code[position]? = some instruction ∧ instruction.isBranch = true

/-- Whether a position is right behind a branch. -/
def BehindBranch (code : List Instruction) (position : Nat) : Prop :=
  ∃ branch, position = branch + 1 ∧ BranchAt code branch

variable {code : List Instruction}

/-- Whether an instruction is a branch depends on its name alone. -/
theorem Instruction.isBranch_of_name {instruction : Instruction} {name : String}
    (named : instruction.name = name) (branches : branchNames.contains name = true) :
    instruction.isBranch = true := by
  rw [isBranch, named]
  exact branches

/-- Where the name of a branch stands there is a branch. -/
theorem branchAt_of_standsAt {name : String} {position : Nat}
    (branches : Instruction.branchNames.contains name = true)
    (stands : standsAt code name position = true) : BranchAt code position := by
  obtain ⟨instruction, there, same⟩ := (Option.any_eq_true _ _).mp stands
  exact ⟨instruction, there, Instruction.isBranch_of_name (eq_of_beq same) branches⟩

/-- The parts of a block are branches. -/
theorem branchAt_of_partOf? {name : String} {block position : Nat}
    (branches : Instruction.branchNames.contains name = true)
    (found : partOf? code name block = some position) : BranchAt code position := by
  have both := List.find?_some found
  rw [Bool.and_eq_true] at both
  exact branchAt_of_standsAt branches both.1

/-- Behind the end of a block is behind a branch. -/
theorem behindBranch_of_behind {block place : Nat} (listed : place ∈ behind code "end" block) :
    BehindBranch code place := by
  obtain ⟨position, found, rfl⟩ := Option.map_eq_some_iff.mp (Option.mem_toList.mp listed)
  exact ⟨position, rfl, branchAt_of_partOf? (by decide) found⟩

/-- Labels lead behind the begin of a loop or the `end` of a block. -/
theorem behindBranch_of_labelTargets {position place : Nat} {label : UInt32}
    (listed : place ∈ labelTargets code position label) : BehindBranch code place := by
  unfold labelTargets at listed
  split at listed
  · rename_i block _
    by_cases loops : standsAt code "loop" block = true
    · rw [if_pos loops] at listed
      obtain rfl := List.mem_singleton.mp listed
      exact ⟨block, rfl, branchAt_of_standsAt (by decide) loops⟩
    · rw [if_neg loops] at listed
      exact behindBranch_of_behind listed
  · cases listed

/-- A label leads behind a branch. -/
theorem behindBranch_of_labels {instruction : Instruction} {position place : Nat}
    (listed : place ∈ instruction.labels.flatMap (labelTargets code position)) :
    BehindBranch code place := by
  obtain ⟨label, _, target⟩ := List.mem_flatMap.mp listed
  exact behindBranch_of_labelTargets target

/-- **Control leaves a straight line only at branches.** It goes on to the next instruction,
or from a branch to a place behind a branch. -/
theorem next_or_behind_branch {position next : Nat} (listed : next ∈ successors code position) :
    next = position + 1 ∨ BranchAt code position ∧ BehindBranch code next := by
  unfold successors at listed
  cases there : code[position]? with
  | none =>
      simp only [there] at listed
      cases listed
  | some instruction =>
      have branchAt {name : String} (named : instruction.name = name)
          (branches : Instruction.branchNames.contains name = true) : BranchAt code position :=
        ⟨instruction, there, Instruction.isBranch_of_name named branches⟩
      simp only [there] at listed
      -- In the order of `successors`: jumps, `br_if`, `if`, `else`, where control stops, the rest.
      split at listed
      · rename_i jumps
        rcases jumps with named | named
        · exact Or.inr ⟨branchAt named (by decide), behindBranch_of_labels listed⟩
        · exact Or.inr ⟨branchAt named (by decide), behindBranch_of_labels listed⟩
      split at listed
      · rename_i named
        rcases List.mem_cons.mp listed with rfl | target
        · exact Or.inl rfl
        · exact Or.inr ⟨branchAt named (by decide), behindBranch_of_labels target⟩
      split at listed
      · rename_i named
        rcases List.mem_cons.mp listed with rfl | target
        · exact Or.inl rfl
        refine Or.inr ⟨branchAt named (by decide), ?_⟩
        split at target
        · rename_i other found
          obtain rfl := List.mem_singleton.mp target
          exact ⟨other, rfl, branchAt_of_partOf? (by decide) found⟩
        · exact behindBranch_of_behind target
      split at listed
      · rename_i named
        obtain ⟨block, _, target⟩ := List.mem_flatMap.mp listed
        exact Or.inr ⟨branchAt named (by decide), behindBranch_of_behind target⟩
      split at listed
      · cases listed
      split at listed
      · cases listed
      · exact Or.inl (List.mem_singleton.mp listed)

end WasmGas

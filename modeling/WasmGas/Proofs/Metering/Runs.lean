import WasmGas.Metering.Charge

/-! # The runs of code

Code that ends with a branch is cut into runs in one way only, for a run has its only branch
at its end (`IsRun`): the cut after each branch is the one that is found
(`runs_of_segments`).
-/

namespace WasmGas

/-- A run goes on to its first branch and ends there. -/
inductive IsRun : List Instruction → Prop
  | branch {last : Instruction} : last.isBranch = true → IsRun [last]
  | cons {head : Instruction} {tail : List Instruction} :
      head.isBranch = false → IsRun tail → IsRun (head :: tail)

/-- Runs that together are the code. -/
structure Segments (code : List Instruction) (segments : List (List Instruction)) : Prop where
  isRun : ∀ run ∈ segments, IsRun run
  flatten : segments.flatten = code

/-- What is in a run is in the code. -/
theorem Segments.mem {code : List Instruction} {segments : List (List Instruction)}
    (cut : Segments code segments) {run : List Instruction} (listed : run ∈ segments)
    {instruction : Instruction} (inside : instruction ∈ run) : instruction ∈ code :=
  cut.flatten ▸ List.mem_flatten_of_mem listed inside

/-- A run has at least its branch. -/
theorem IsRun.ne_nil {run : List Instruction} (isRun : IsRun run) : run ≠ [] := by
  cases isRun <;> exact List.cons_ne_nil _ _

/-- A branch at the front is a run by itself. -/
theorem runs_cons_of_branch {instruction : Instruction} (branches : instruction.isBranch = true)
    (rest : List Instruction) :
    runs (instruction :: rest) = ([instruction] :: (runs rest).1, (runs rest).2) := by
  simp only [runs, branches, ↓reduceIte]

/-- A run at the front is the first one. -/
theorem runs_append {run : List Instruction} (isRun : IsRun run) (rest : List Instruction) :
    runs (run ++ rest) = (run :: (runs rest).1, (runs rest).2) := by
  induction isRun with
  | branch branches => exact runs_cons_of_branch branches rest
  | cons straight _ tail =>
      rw [List.cons_append, runs, tail]
      simp only [straight, Bool.false_eq_true, ↓reduceIte]

/-- There is no other cut than the one that is found. -/
theorem runs_of_segments {code : List Instruction} {segments : List (List Instruction)}
    (cut : Segments code segments) : runs code = (segments, []) := by
  obtain ⟨isRun, rfl⟩ := cut
  induction segments with
  | nil => rfl
  | cons head tail found =>
      have rest := found fun run inside => isRun run (List.mem_cons_of_mem head inside)
      rw [List.flatten_cons, runs_append (isRun head List.mem_cons_self), rest]

/-- Code is cut into runs in one way only. -/
theorem Segments.unique {code : List Instruction} {one other : List (List Instruction)}
    (first : Segments code one) (second : Segments code other) : other = one := by
  have same := runs_of_segments first
  rw [runs_of_segments second] at same
  exact congrArg Prod.fst same

/-- What is found are runs, and what comes after the last branch has none. -/
theorem runs_spec (code : List Instruction) :
    (∀ run ∈ (runs code).1, IsRun run) ∧
      (∀ instruction ∈ (runs code).2, instruction.isBranch = false) ∧
      (runs code).1.flatten ++ (runs code).2 = code := by
  induction code with
  | nil =>
      refine ⟨?_, ?_, rfl⟩
      · intro run absurdly
        cases absurdly
      · intro instruction absurdly
        cases absurdly
  | cons head tail found =>
      obtain ⟨isRun, straight, whole⟩ := found
      by_cases branches : head.isBranch = true
      · rw [runs_cons_of_branch branches]
        refine ⟨List.forall_mem_cons.mpr ⟨.branch branches, isRun⟩, straight, ?_⟩
        rw [List.flatten_cons, List.append_assoc, whole, List.singleton_append]
      · have goesOn : head.isBranch = false := eq_false_of_ne_true branches
        simp only [runs, goesOn, Bool.false_eq_true, ↓reduceIte]
        cases first : (runs tail).1 with
        | nil =>
            rw [first, List.flatten_nil, List.nil_append] at whole
            refine ⟨?_, List.forall_mem_cons.mpr ⟨goesOn, straight⟩, ?_⟩
            · intro run absurdly
              cases absurdly
            · rw [List.flatten_nil, List.nil_append, whole]
        | cons run others =>
            rw [first] at isRun whole
            obtain ⟨one, rest⟩ := List.forall_mem_cons.mp isRun
            refine ⟨List.forall_mem_cons.mpr ⟨.cons goesOn one, rest⟩, straight, ?_⟩
            exact congrArg (head :: ·) whole

/-- Code after which nothing is left over consists of its runs. -/
theorem segments_runs {code : List Instruction} (finished : (runs code).2 = []) :
    Segments code (runs code).1 := by
  obtain ⟨isRun, _, whole⟩ := runs_spec code
  rw [finished, List.append_nil] at whole
  exact ⟨isRun, whole⟩

/-- Nothing is left over of code that ends with a branch, or that is empty. -/
theorem runs_finished {code : List Instruction}
    (ends : ∀ last ∈ code.getLast?, last.isBranch = true) : (runs code).2 = [] := by
  obtain ⟨_, straight, whole⟩ := runs_spec code
  cases left : (runs code).2 with
  | nil => rfl
  | cons head tail =>
      rw [left] at straight whole
      have nonempty := List.cons_ne_nil head tail
      have ending : code.getLast? = some ((head :: tail).getLast nonempty) := by
        rw [← whole, List.getLast?_append, List.getLast?_eq_some_getLast nonempty,
          Option.some_or]
      have branches := ends _ ending
      rw [straight _ (List.getLast_mem nonempty)] at branches
      cases branches

end WasmGas

import Mathlib.Algebra.Ring.Int.Defs
import Mathlib.Data.List.Chain
import WasmGas.Proofs.Metering.Bodies
import WasmGas.Proofs.Metering.ControlFlow

/-! # Nothing runs unpaid

On any path through metered code, what was passed to the metering function so far covers all
original instructions that were executed so far, the last one included, and what is due on
entry (`Module.meter_prepaid`). The reason is a credit: behind each instruction of a run, the
rest of the run has been paid for (`Mark`). One step forward never spends more than the
credit, and behind a branch, where control may come from elsewhere, none is needed
(`Mark.Follows`).
-/

namespace WasmGas

/-- An instruction of metered code, and whether it was put there by metering. -/
structure Placed where
  instruction : Instruction
  injected : Bool
  deriving DecidableEq, Repr

def ChargedRun.placed (charged : ChargedRun) : List Placed :=
  charged.charge.map (⟨·, true⟩) ++ charged.run.map (⟨·, false⟩)

/-- The integer that an instruction puts on the stack. -/
def Instruction.integer? (instruction : Instruction) : Option Int :=
  match instruction.immediate with
  | some (.int32 value) => some value.toInt
  | some (.int64 value) => some value.toInt
  | _ => none

namespace Placed

/-- Whether the metering function is called. -/
def isCharge (placed : Placed) : Bool := placed.injected && placed.instruction.isCall

/-- What is passed to the metering function, by the constant right before its call. -/
def passed (before call : Placed) : Int :=
  if call.isCharge then before.instruction.integer?.getD 0 else 0

/-- What an instruction has to be paid, if it is an original one. -/
def cost (tariff : Tariff) (placed : Placed) : Int :=
  if placed.injected then 0 else (tariff.instructionCost placed.instruction).units

end Placed

/-- What the instruction at a position passes to the metering function. -/
def passedAt (placed : List Placed) : (position : Nat) → Int
  | 0 => 0
  | position + 1 =>
    match placed[position]?, placed[position + 1]? with
    | some before, some call => before.passed call
    | _, _ => 0

/-- What the instruction at a position has to be paid. -/
def costAt (tariff : Tariff) (placed : List Placed) (position : Nat) : Int :=
  (placed[position]?.map (Placed.cost tariff)).getD 0

/-- Whether an original instruction stands at a position. -/
def OriginalAt (placed : List Placed) (position : Nat) : Prop :=
  ∃ instruction, placed[position]? = some ⟨instruction, false⟩

theorem map_instruction_placed (layout : List ChargedRun) :
    (layout.flatMap ChargedRun.placed).map (·.instruction) = layout.flatMap ChargedRun.code := by
  rw [List.map_flatMap]
  congr 1
  funext charged
  rw [ChargedRun.placed, ChargedRun.code, List.map_append, List.map_map, List.map_map]
  exact congrArg₂ (· ++ ·) (List.map_id charged.charge) (List.map_id charged.run)

/-! ## Amounts -/

namespace Tariff

variable (tariff : Tariff)

/-- What some instructions cost together, however much it is. -/
def total (code : List Instruction) : Nat :=
  (code.map fun instruction => (tariff.instructionCost instruction).units).sum

theorem total_cons (head : Instruction) (tail : List Instruction) :
    tariff.total (head :: tail) = (tariff.instructionCost head).units + tariff.total tail :=
  List.sum_cons

/-- Below the greatest amount the gas of some instructions is their total. -/
theorem units_sum_instructionCost {code : List Instruction}
    (below : (code.map tariff.instructionCost).sum.units < gasLimit) :
    (code.map tariff.instructionCost).sum.units = tariff.total code := by
  rw [Gas.units_sum_of_lt below, List.map_map]
  rfl

end Tariff

/-- An integer constant passes the very amount, which is then far from the greatest one. -/
theorem Register.Passes.integer?_eq {register : Register}
    (integer : register = .i32 ∨ register = .i64) {cost : Gas} {constant : Instruction}
    (passes : register.Passes cost constant) :
    constant.integer? = some (cost.units : Int) ∧ cost.units < gasLimit := by
  rcases integer with rfl | rfl
  · obtain ⟨amount, same, rfl⟩ := passes
    have bounded := amount.toInt_lt
    rw [same] at bounded
    refine ⟨congrArg some same, ?_⟩
    rw [Gas.gasLimit_eq]
    omega
  · obtain ⟨amount, same, rfl⟩ := passes
    have bounded := amount.toInt_lt
    rw [same] at bounded
    refine ⟨congrArg some same, ?_⟩
    rw [Gas.gasLimit_eq]
    omega

namespace Meter

theorem isBranch_invocation (meter : Meter) : meter.invocation.isBranch = false := rfl

variable {meter : Meter}

/-- A charge covers what is carried and the run. -/
theorem Pays.covers (integer : meter.register = .i32 ∨ meter.register = .i64) {carried : Gas}
    {run charge : List Instruction}
    (pays : meter.Pays (carried + (run.map meter.tariff.instructionCost).sum) charge) :
    carried.units < gasLimit ∧
      ((charge = [] ∧ carried.units = 0 ∧ meter.tariff.total run = 0) ∨
        ∃ constant amount, charge = [constant, meter.invocation] ∧
          constant.integer? = some amount ∧ constant.isCall = false ∧ constant.isBranch = false ∧
          (carried.units + meter.tariff.total run : Nat) ≤ amount) := by
  rcases pays.empty_or_call with ⟨free, rfl⟩ | ⟨constant, passes, rfl⟩
  · have nothing := congrArg Gas.units free
    have positive : 0 < gasLimit := by decide
    rw [Gas.units_add, Gas.units_zero] at nothing
    have none : (run.map meter.tariff.instructionCost).sum.units = 0 := by omega
    refine ⟨by omega, Or.inl ⟨rfl, by omega, ?_⟩⟩
    rw [← meter.tariff.units_sum_instructionCost (none ▸ positive), none]
  · obtain ⟨value, below⟩ := passes.integer?_eq integer
    have whole := Gas.units_add_of_lt below
    have price := Gas.units_add_of_lt (a := carried)
      (b := (run.map meter.tariff.instructionCost).sum) (by omega)
    refine ⟨by omega, Or.inr ⟨constant, _, rfl, value, ?_, ?_, ?_⟩⟩
    · rw [Instruction.isCall, passes.name_eq]
      rfl
    · rw [Instruction.isBranch, passes.name_eq]
      rfl
    · rw [← meter.tariff.units_sum_instructionCost (by omega)]
      omega

end Meter

/-! ## Credit -/

/-- An instruction of metered code, and how much has been paid in advance after it. -/
structure Mark where
  placed : Placed
  credit : Int

namespace Mark

variable (tariff : Tariff)

/-- Whether a mark can be the first after any instruction, with something to be paid on entry. -/
structure Fresh (entry : Nat) (mark : Mark) : Prop where
  spends : mark.placed.cost tariff + mark.credit + entry ≤ 0
  silent : mark.placed.isCharge = false

/-- Whether the credit lasts from one mark to the next. -/
structure Follows (before after : Mark) : Prop where
  spends : after.placed.cost tariff + after.credit ≤
    before.credit + before.placed.passed after.placed
  fresh : before.placed.instruction.isBranch = true → after.Fresh tariff 0

variable {tariff}

/-- Where a run is not paid yet, nothing was passed. -/
theorem Fresh.passed_eq {entry : Nat} {mark : Mark} (fresh : mark.Fresh tariff entry)
    (before : Placed) : before.passed mark.placed = 0 := by
  rw [Placed.passed, fresh.silent]
  rfl

/-- A run that begins afresh can follow anything that is not in debt. -/
theorem Fresh.follows {before after : Mark} (fresh : after.Fresh tariff 0)
    (credit : 0 ≤ before.credit) : before.Follows tariff after where
  spends := by
    have spends := fresh.spends
    rw [fresh.passed_eq]
    omega
  fresh _ := fresh

end Mark

/-- The marks of a run: after each instruction, the rest of the run is paid for. -/
def runMarks (tariff : Tariff) : List Instruction → List Mark
  | [] => []
  | head :: tail => ⟨⟨head, false⟩, tariff.total tail⟩ :: runMarks tariff tail

/-- The marks of what is put in front of a run: what is due on entry is owed up to the call,
and after it the whole run is paid for. -/
def chargeMarks (tariff : Tariff) (entry : Nat) (run : List Instruction) :
    List Instruction → List Mark
  | [] => []
  | constant :: calls =>
    ⟨⟨constant, true⟩, -entry⟩ :: calls.map fun call => ⟨⟨call, true⟩, tariff.total run⟩

/-- The marks of metered code. -/
def marks (tariff : Tariff) : (entry : Nat) → List ChargedRun → List Mark
  | _, [] => []
  | entry, first :: others =>
    chargeMarks tariff entry first.run first.charge ++ runMarks tariff first.run ++
      marks tariff 0 others

/-- The marks stand at the instructions of the layout. -/
theorem map_placed_marks (tariff : Tariff) (entry : Nat) (layout : List ChargedRun) :
    (marks tariff entry layout).map (·.placed) = layout.flatMap ChargedRun.placed := by
  have run (code : List Instruction) :
      (runMarks tariff code).map (·.placed) = code.map (⟨·, false⟩) := by
    induction code with
    | nil => rfl
    | cons head tail same => rw [runMarks, List.map_cons, same, List.map_cons]
  have charge (entry : Nat) (code front : List Instruction) :
      (chargeMarks tariff entry code front).map (·.placed) = front.map (⟨·, true⟩) := by
    cases front with
    | nil => rfl
    | cons constant calls => rw [chargeMarks, List.map_cons, List.map_map, List.map_cons]; rfl
  induction layout generalizing entry with
  | nil => rfl
  | cons first others same =>
      rw [marks, List.map_append, List.map_append, run, charge, same, List.flatMap_cons,
        ChargedRun.placed]

/-- Within a run that is paid nothing is in debt. -/
theorem credit_runMarks_nonneg {tariff : Tariff} {run : List Instruction} {mark : Mark}
    (listed : mark ∈ runMarks tariff run) : 0 ≤ mark.credit := by
  induction run with
  | nil => cases listed
  | cons head tail nonneg =>
      rcases List.mem_cons.mp listed with rfl | later
      · exact Int.natCast_nonneg _
      · exact nonneg later

/-- The instructions of a run are not injected. -/
theorem injected_runMarks {tariff : Tariff} {run : List Instruction} {mark : Mark}
    (listed : mark ∈ runMarks tariff run) : mark.placed.injected = false := by
  induction run with
  | nil => cases listed
  | cons head tail original =>
      rcases List.mem_cons.mp listed with rfl | later
      · rfl
      · exact original later

/-- Without a cost of entry nothing is ever in debt. -/
theorem credit_marks_zero_nonneg {tariff : Tariff} {layout : List ChargedRun} {mark : Mark}
    (listed : mark ∈ marks tariff 0 layout) : 0 ≤ mark.credit := by
  induction layout with
  | nil => cases listed
  | cons first others nonneg =>
      rw [marks, List.mem_append, List.mem_append] at listed
      rcases listed with (charge | run) | later
      · cases front : first.charge with
        | nil =>
            rw [front] at charge
            cases charge
        | cons constant calls =>
            rw [front, chargeMarks, List.mem_cons, List.mem_map] at charge
            rcases charge with rfl | ⟨call, _, rfl⟩
            · exact Int.le_refl 0
            · exact Int.natCast_nonneg _
      · exact credit_runMarks_nonneg run
      · exact nonneg later

/-- Only what is due on entry is ever owed, and only by the first instruction. -/
theorem credit_tail_nonneg {tariff : Tariff} {entry : Nat} {layout : List ChargedRun}
    {mark : Mark} (listed : mark ∈ (marks tariff entry layout).tail) : 0 ≤ mark.credit := by
  cases layout with
  | nil => cases listed
  | cons first others =>
      rw [marks] at listed
      cases front : first.charge with
      | nil =>
          rw [front, chargeMarks, List.nil_append] at listed
          rcases List.mem_append.mp (List.mem_of_mem_tail listed) with run | later
          · exact credit_runMarks_nonneg run
          · exact credit_marks_zero_nonneg later
      | cons constant calls =>
          rw [front, chargeMarks, List.cons_append, List.cons_append, List.tail_cons,
            List.mem_append, List.mem_append, List.mem_map] at listed
          rcases listed with (⟨call, _, rfl⟩ | run) | later
          · exact Int.natCast_nonneg _
          · exact credit_runMarks_nonneg run
          · exact credit_marks_zero_nonneg later

/-- No original instruction is in debt. -/
theorem credit_original_nonneg {tariff : Tariff} {entry : Nat} {layout : List ChargedRun}
    {mark : Mark} (listed : mark ∈ marks tariff entry layout)
    (original : mark.placed.injected = false) : 0 ≤ mark.credit := by
  cases layout with
  | nil => cases listed
  | cons first others =>
      rw [marks, List.mem_append, List.mem_append] at listed
      rcases listed with (charge | run) | later
      · cases front : first.charge with
        | nil =>
            rw [front] at charge
            cases charge
        | cons constant calls =>
            rw [front, chargeMarks, List.mem_cons, List.mem_map] at charge
            obtain rfl | ⟨call, _, rfl⟩ := charge <;> cases original
      · exact credit_runMarks_nonneg run
      · exact credit_marks_zero_nonneg later

/-- In a run each instruction uses up its part of the credit, and none is left at the end. -/
theorem isChain_runMarks {tariff : Tariff} {run : List Instruction} (isRun : IsRun run)
    {rest : List Mark} (chain : rest.IsChain (Mark.Follows tariff))
    (fresh : ∀ mark ∈ rest.head?, mark.Fresh tariff 0) :
    (runMarks tariff run ++ rest).IsChain (Mark.Follows tariff) := by
  induction isRun with
  | branch _ =>
      refine List.isChain_cons.mpr ⟨fun mark first => ?_, chain⟩
      exact (fresh mark first).follows (Int.natCast_nonneg _)
  | cons straight isRun goesOn =>
      refine List.isChain_cons.mpr ⟨fun mark first => ?_, goesOn⟩
      obtain ⟨second, more, rfl⟩ := List.exists_cons_of_ne_nil isRun.ne_nil
      cases first
      constructor
      · simp only [Placed.cost, Placed.passed, Placed.isCharge, Bool.false_eq_true, ↓reduceIte,
          Bool.false_and, Tariff.total_cons]
        omega
      · intro branches
        rw [straight] at branches
        cases branches

variable {meter : Meter} (integer : meter.register = .i32 ∨ meter.register = .i64)

include integer

/-- The credit lasts through the whole code, and control can come from elsewhere wherever a
run begins. -/
theorem isChain_marks {carried : Gas} {layout : List ChargedRun}
    (charges : meter.Charges carried layout) (isRun : ∀ charged ∈ layout, IsRun charged.run) :
    (marks meter.tariff carried.units layout).IsChain (Mark.Follows meter.tariff) ∧
      ∀ mark ∈ (marks meter.tariff carried.units layout).head?,
        mark.Fresh meter.tariff carried.units := by
  induction layout generalizing carried with
  | nil => exact ⟨.nil, nofun⟩
  | cons first others lasts =>
      obtain ⟨pays, rest⟩ := charges
      obtain ⟨one, more⟩ := List.forall_mem_cons.mp isRun
      obtain ⟨chain, fresh⟩ := lasts rest more
      have runChain := isChain_runMarks one chain fresh
      obtain ⟨head, tail, same⟩ := List.exists_cons_of_ne_nil one.ne_nil
      rw [marks, List.append_assoc]
      -- A run that costs nothing has no charge, and else the constant and the call come before it.
      obtain ⟨_, ⟨empty, nothing, free⟩ |
        ⟨constant, amount, front, value, noCall, noBranch, covers⟩⟩ := pays.covers integer
      · rw [empty, chargeMarks, List.nil_append]
        refine ⟨runChain, fun mark first => ?_⟩
        rw [same, meter.tariff.total_cons] at free
        rw [same] at first
        cases first
        refine ⟨?_, rfl⟩
        simp only [Placed.cost, Bool.false_eq_true, ↓reduceIte]
        omega
      · rw [front, chargeMarks, List.map_singleton, List.cons_append, List.singleton_append]
        refine ⟨List.isChain_cons.mpr ⟨?_, List.isChain_cons.mpr ⟨?_, runChain⟩⟩, ?_⟩
        · intro mark second
          cases second
          refine ⟨?_, fun branches => absurd branches (Bool.eq_false_iff.mp noBranch)⟩
          have called : (⟨meter.invocation, true⟩ : Placed).isCharge = true := rfl
          simp only [Placed.cost, Placed.passed, called, value, ↓reduceIte, Option.getD_some]
          omega
        · intro mark third
          rw [same] at third
          cases third
          refine ⟨?_, fun branches =>
            absurd branches (Bool.eq_false_iff.mp meter.isBranch_invocation)⟩
          rw [same, meter.tariff.total_cons]
          simp only [Placed.cost, Placed.passed, Placed.isCharge, Bool.false_eq_true, ↓reduceIte,
            Bool.false_and]
          omega
        · intro mark first
          cases first
          refine ⟨?_, ?_⟩
          · simp only [Placed.cost, ↓reduceIte]
            omega
          · simp only [Placed.isCharge, noCall, Bool.and_false]

/-- No branch is injected. -/
theorem isBranch_of_injected {carried : Gas} {layout : List ChargedRun}
    (charges : meter.Charges carried layout) {mark : Mark} {entry : Nat}
    (listed : mark ∈ marks meter.tariff entry layout) (injected : mark.placed.injected = true) :
    mark.placed.instruction.isBranch = false := by
  induction layout generalizing carried entry with
  | nil => cases listed
  | cons first others straight =>
      obtain ⟨pays, rest⟩ := charges
      rw [marks, List.mem_append, List.mem_append] at listed
      rcases listed with (charge | run) | later
      · rcases pays.covers integer with
          ⟨_, ⟨empty, _⟩ | ⟨constant, amount, front, _, _, noBranch, _⟩⟩
        · rw [empty] at charge
          cases charge
        · rw [front, chargeMarks, List.map_singleton, List.mem_cons, List.mem_singleton] at charge
          rcases charge with rfl | rfl
          · exact noBranch
          · exact meter.isBranch_invocation
      · rw [injected_runMarks run] at injected
        cases injected
      · exact straight rest later

omit integer

/-! ## Paths -/

/-- What is known of the marks of metered code. -/
structure Credited (tariff : Tariff) (entry : Nat) (marks : List Mark) : Prop where
  chain : marks.IsChain (Mark.Follows tariff)
  head : ∀ mark ∈ marks.head?, mark.Fresh tariff entry
  tail : ∀ mark ∈ marks.tail, 0 ≤ mark.credit
  original : ∀ mark ∈ marks, mark.placed.injected = false → 0 ≤ mark.credit
  branch : ∀ mark ∈ marks, mark.placed.instruction.isBranch = true → 0 ≤ mark.credit

namespace Credited

variable {tariff : Tariff} {entry : Nat} {marks : List Mark}

/-- What is due at a position is the cost of the instruction there. -/
theorem costAt_eq {position : Nat} {mark : Mark} (there : marks[position]? = some mark) :
    costAt tariff (marks.map (·.placed)) position = mark.placed.cost tariff := by
  rw [costAt, List.getElem?_map, there]
  rfl

/-- What was passed at a position depends on the instruction before. -/
theorem passedAt_succ {position : Nat} {before mark : Mark}
    (front : marks[position]? = some before) (there : marks[position + 1]? = some mark) :
    passedAt (marks.map (·.placed)) (position + 1) = before.placed.passed mark.placed := by
  rw [passedAt, List.getElem?_map, front, List.getElem?_map, there]
  rfl

/-- What comes next pays for itself from the credit. -/
theorem follows (credited : Credited tariff entry marks) {position : Nat} {before mark : Mark}
    (front : marks[position]? = some before) (there : marks[position + 1]? = some mark) :
    before.Follows tariff mark := by
  obtain ⟨_, rfl⟩ := List.getElem?_eq_some_iff.mp front
  obtain ⟨inside, rfl⟩ := List.getElem?_eq_some_iff.mp there
  exact List.isChain_iff_getElem.mp credited.chain position inside

/-- Behind the first instruction nothing is in debt. -/
theorem credit_succ_nonneg (credited : Credited tariff entry marks) {position : Nat} {mark : Mark}
    (there : marks[position + 1]? = some mark) : 0 ≤ mark.credit := by
  apply credited.tail mark
  rw [← List.getElem?_tail] at there
  exact List.mem_of_getElem? there

/-- Where an original instruction stands none is injected. -/
theorem injected_of_originalAt {position : Nat} {mark : Mark}
    (there : marks[position]? = some mark)
    (original : OriginalAt (marks.map (·.placed)) position) : mark.placed.injected = false := by
  obtain ⟨instruction, same⟩ := original
  rw [List.getElem?_map, there] at same
  exact congrArg Placed.injected (Option.some.inj same)

/-- Where a branch stands there is a mark. -/
theorem exists_of_branchAt {position : Nat}
    (branches : BranchAt (marks.map (·.placed.instruction)) position) :
    ∃ mark, marks[position]? = some mark ∧ mark.placed.instruction.isBranch = true := by
  obtain ⟨instruction, same, isBranch⟩ := branches
  rw [List.getElem?_map] at same
  obtain ⟨mark, there, rfl⟩ := Option.map_eq_some_iff.mp same
  exact ⟨mark, there, isBranch⟩

/-- At a branch nothing is in debt. -/
theorem credit_nonneg_of_branchAt (credited : Credited tariff entry marks) {position : Nat}
    {mark : Mark} (there : marks[position]? = some mark)
    (branches : BranchAt (marks.map (·.placed.instruction)) position) : 0 ≤ mark.credit := by
  obtain ⟨other, same, isBranch⟩ := exists_of_branchAt branches
  rw [there] at same
  cases same
  exact credited.branch mark (List.mem_of_getElem? there) isBranch

/-- **What was passed covers the credit.** So it covers all that was executed, and what is due
on entry once an original instruction was. -/
theorem covers (credited : Credited tariff entry marks) {positions : List Nat}
    (path : Path (marks.map (·.placed.instruction)) positions) :
    ∃ position mark, positions.head? = some position ∧ marks[position]? = some mark ∧
      (positions.map (costAt tariff (marks.map (·.placed)))).sum + entry + mark.credit ≤
        (positions.map (passedAt (marks.map (·.placed)))).sum ∧
      ((∃ executed ∈ positions, OriginalAt (marks.map (·.placed)) executed) →
        0 ≤ mark.credit) := by
  induction path with
  | start some =>
      rw [List.length_map] at some
      have there := List.getElem?_eq_getElem some
      refine ⟨0, _, rfl, there, ?_, ?_⟩
      · have fresh := (credited.head _ (List.head?_eq_getElem? ▸ there)).spends
        rw [List.map_singleton, List.map_singleton, List.sum_singleton, List.sum_singleton,
          costAt_eq there, passedAt]
        omega
      · rintro ⟨executed, listed, original⟩
        obtain rfl := List.mem_singleton.mp listed
        exact credited.original _ (List.mem_of_getElem? there)
          (injected_of_originalAt there original)
  | step path listed inside covered =>
      rename_i position next earlier
      obtain ⟨_, before, heads, front, covers, _⟩ := covered
      cases heads
      rw [List.length_map] at inside
      obtain ⟨mark, there⟩ : ∃ mark, marks[next]? = some mark :=
        ⟨_, List.getElem?_eq_getElem inside⟩
      have spends : mark.placed.cost tariff + mark.credit ≤
          before.credit + passedAt (marks.map (·.placed)) next ∧ 0 ≤ mark.credit := by
        -- Straight on the credit is carried along. Behind a jump the run begins afresh.
        rcases next_or_behind_branch listed with rfl | ⟨leaves, branch, rfl, enters⟩
        · rw [passedAt_succ front there]
          exact ⟨(credited.follows front there).spends, credited.credit_succ_nonneg there⟩
        · obtain ⟨last, behind, branches⟩ := exists_of_branchAt enters
          have fresh := (credited.follows behind there).fresh branches
          have enough := credited.credit_nonneg_of_branchAt front leaves
          have spends := fresh.spends
          rw [passedAt_succ behind there, fresh.passed_eq]
          exact ⟨by omega, credited.credit_succ_nonneg there⟩
      refine ⟨next, mark, rfl, there, ?_, fun _ => spends.2⟩
      simp only [List.map_cons, List.sum_cons, costAt_eq there] at covers ⊢
      omega

end Credited

variable {meter : Meter}

/-- The charges of a body keep it out of debt. -/
theorem credited_marks (integer : meter.register = .i32 ∨ meter.register = .i64) {carried : Gas}
    {layout : List ChargedRun} (charges : meter.Charges carried layout)
    (isRun : ∀ charged ∈ layout, IsRun charged.run) :
    Credited meter.tariff carried.units (marks meter.tariff carried.units layout) := by
  obtain ⟨chain, head⟩ := isChain_marks integer charges isRun
  refine ⟨chain, head, fun mark => credit_tail_nonneg, fun mark => credit_original_nonneg, ?_⟩
  intro mark listed branches
  refine credit_original_nonneg listed (Bool.eq_false_iff.mpr fun injected => ?_)
  rw [isBranch_of_injected integer charges listed injected] at branches
  cases branches

/-- What is due on entry is not cut off, for else the first charge could not be passed. -/
theorem Meter.Charges.units_entry (integer : meter.register = .i32 ∨ meter.register = .i64)
    {one other : Gas} {layout : List ChargedRun} (charges : meter.Charges (one + other) layout)
    (nonempty : layout ≠ []) : (one + other).units = one.units + other.units := by
  obtain ⟨first, others, rfl⟩ := List.exists_cons_of_ne_nil nonempty
  exact Gas.units_add_of_lt (charges.1.covers integer).1

namespace Meter.MetersBody

variable {signature : Signature} {body metered : FunctionBody} {layout : List ChargedRun}

/-- The instructions of a layout are the metered code. -/
theorem map_instruction (meters : meter.MetersBody signature body metered layout) :
    (layout.flatMap ChargedRun.placed).map (·.instruction) = metered.code := by
  rw [meters.code, map_instruction_placed]

/-- Branches are never put in by metering. -/
theorem originalAt (integer : meter.register = .i32 ∨ meter.register = .i64)
    (meters : meter.MetersBody signature body metered layout) {position : Nat}
    (branches : BranchAt metered.code position) :
    OriginalAt (layout.flatMap ChargedRun.placed) position := by
  obtain ⟨instruction, same, isBranch⟩ := branches
  rw [← meters.map_instruction, ← map_placed_marks meter.tariff 0, List.map_map,
    List.getElem?_map] at same
  obtain ⟨mark, there, rfl⟩ := Option.map_eq_some_iff.mp same
  refine ⟨mark.placed.instruction, ?_⟩
  have original : mark.placed.injected = false := Bool.eq_false_iff.mpr fun injected => by
    have straight :=
      isBranch_of_injected integer meters.charges (List.mem_of_getElem? there) injected
    rw [Function.comp_apply, straight] at isBranch
    cases isBranch
  rw [← map_placed_marks meter.tariff 0, List.getElem?_map, there, Option.map_some, ← original]

/-- Metered code pays in advance on every path. -/
theorem prepays (integer : meter.register = .i32 ∨ meter.register = .i64)
    (meters : meter.MetersBody signature body metered layout) {path : List Nat}
    (taken : Path metered.code path)
    (executed : ∃ position ∈ path, OriginalAt (layout.flatMap ChargedRun.placed) position) :
    ((meter.tariff.signatureCost signature).units + (meter.tariff.localsCost body.locals).units +
        (path.map (costAt meter.tariff (layout.flatMap ChargedRun.placed))).sum : Int) ≤
      (path.map (passedAt (layout.flatMap ChargedRun.placed))).sum := by
  have nonempty : layout ≠ [] := by
    rintro rfl
    obtain ⟨position, _, instruction, there⟩ := executed
    cases there
  have isRun : ∀ charged ∈ layout, IsRun charged.run := fun charged listed =>
    meters.segments.isRun charged.run (List.mem_map_of_mem listed)
  have credited := credited_marks integer meters.charges isRun
  have entry := meters.charges.units_entry integer nonempty
  have same := map_placed_marks meter.tariff
    (meter.tariff.signatureCost signature + meter.tariff.localsCost body.locals).units layout
  have code : (marks meter.tariff (meter.tariff.signatureCost signature +
      meter.tariff.localsCost body.locals).units layout).map (·.placed.instruction) =
        metered.code := by
    rw [← meters.map_instruction, ← same, List.map_map]
    rfl
  obtain ⟨position, mark, _, _, covers, paid⟩ := credited.covers (code ▸ taken)
  rw [same] at covers paid
  have credit := paid executed
  omega

end Meter.MetersBody

/-- **Metering is sound along every path.** Once an original instruction was executed, what was
passed to the metering function covers the signature, the locals and all original
instructions that were executed, each as often as it was. -/
theorem Module.meter_prepaid {m metered : Module} {tariff : Tariff} {options : MeteringOptions}
    {gas : Gas} (integer : options.register = .i32 ∨ options.register = .i64)
    (done : m.meter tariff options = .ok (metered, gas)) :
    m.count .code ≤ 1 ∧
      ∀ (i : Nat) (body : FunctionBody), (m.bodies?.getD [])[i]? = some body →
        ∃ (typeIndex : UInt32) (signature : Signature) (other : FunctionBody)
          (layout : List ChargedRun),
        (m.typeIndices?.getD [])[i]? = some typeIndex ∧
        (m.signatures?.getD [] ++ [options.signature])[typeIndex.toNat]? = some signature ∧
        (metered.bodies?.getD [])[i]? = some other ∧
        (m.meterOf tariff options).MetersBody signature body other layout ∧
        ∀ path, Path other.code path →
          (∃ position ∈ path, OriginalAt (layout.flatMap ChargedRun.placed) position) →
          ((tariff.signatureCost signature).units + (tariff.localsCost body.locals).units +
              (path.map (costAt tariff (layout.flatMap ChargedRun.placed))).sum : Int) ≤
            (path.map (passedAt (layout.flatMap ChargedRun.placed))).sum := by
  refine ⟨count_code_of_meter done, fun i body held => ?_⟩
  obtain ⟨typeIndex, signature, other, layout, declared, typed, there, meters⟩ :=
    metersBody_of_meter done held
  refine ⟨typeIndex, signature, other, layout, declared, typed, there, meters, ?_⟩
  intro path taken executed
  exact meters.prepays integer taken executed

/-- A path that goes through the loop twice, from its last position back to its first one. -/
def loopingPath : List Nat := [13, 12, 11, 10, 9, 8, 7, 6, 5, 4, 3, 7, 6, 5, 4, 3, 2, 1, 0]

/-- A path that goes around the loop once. -/
theorem Module.meter_prepaid_looping :
    looping.meter unitTariff {} = .ok (loopingMetered, .cap 19) ∧
      Path loopingCode loopingPath ∧
      ∃ layout, (looping.meterOf unitTariff {}).MetersBody ⟨.func, [.i32], []⟩ loopingBody
          ⟨loopingBody.locals, loopingCode⟩ layout ∧
        (3 + 2 +
            (loopingPath.map (costAt unitTariff (layout.flatMap ChargedRun.placed))).sum : Int) ≤
          (loopingPath.map (passedAt (layout.flatMap ChargedRun.placed))).sum := by
  have done : looping.meter unitTariff {} = .ok (loopingMetered, .cap 19) := by decide +kernel
  have path : Path loopingCode loopingPath := by decide +kernel
  obtain ⟨_, each⟩ := meter_prepaid (Or.inr rfl) done
  obtain ⟨typeIndex, signature, other, layout, declared, typed, there, meters, prepaid⟩ :=
    each 0 loopingBody rfl
  cases declared
  cases typed
  cases there
  have loop : BranchAt loopingCode 2 := ⟨_, rfl, by decide⟩
  have executed := meters.originalAt (Or.inr rfl) loop
  exact ⟨done, path, layout, meters, prepaid loopingPath path ⟨2, by decide, executed⟩⟩

end WasmGas

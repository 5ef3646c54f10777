import WasmGas.Proofs.Metering.FunctionSpace
import WasmGas.Proofs.Wire.WellFormed

/-! # Metered modules have a file

Each step of metering keeps a module well-formed. The added signature and the added import have no
instructions. Renumbering changes the value of an immediate but not its shape, and leaves debug
names where they stand. What is put in front of a run are a constant and a direct call, both from
the opcode table. So what becomes of a well-formed module is well-formed
(`Module.WellFormed.meter`).
-/

namespace WasmGas

/-! ## Entries at the end -/

/-- What holds of all sections holds of them when one of them has an entry more. -/
theorem Appends.forall_mem {α : Type} {view : Section → Option (List α)} {make : List α → Section}
    {entry : α} {sections changed : List Section} {holds : Section → Prop}
    (appends : Appends view make entry sections changed) (made : ∀ entries, holds (make entries))
    (each : ∀ content ∈ sections, holds content) : ∀ content ∈ changed, holds content := by
  cases appends with
  | last _ =>
      obtain ⟨front, behind⟩ := List.forall_mem_append.mp each
      obtain ⟨_, back⟩ := List.forall_mem_cons.mp behind
      exact List.forall_mem_append.mpr ⟨front, List.forall_mem_cons.mpr ⟨made _, back⟩⟩
  | new _ =>
      obtain ⟨front, back⟩ := List.forall_mem_append.mp each
      exact List.forall_mem_append.mpr ⟨front, List.forall_mem_cons.mpr ⟨made _, back⟩⟩

/-! ## Renumbering -/

/-- Renumbering leaves the row of an instruction. -/
theorem Instruction.Tabled.renumber {instruction : Instruction} (tabled : instruction.Tabled)
    (insertion : UInt32) : (instruction.renumber insertion).Tabled := by
  cases called : instruction.callTarget? with
  | none =>
      rw [Instruction.renumber, called]
      exact tabled
  | some target =>
      obtain ⟨_, held⟩ := callTarget?_eq_some_iff.mp called
      rw [Instruction.renumber, called]
      refine tabled.of_shape rfl rfl ?_
      rw [held]
      rfl

/-- Renumbering leaves a name subsection as it would be read. -/
theorem NameSubsection.AsRead.renumber {subsection : NameSubsection} (asRead : subsection.AsRead)
    (insertion : UInt32) (name : String) : (subsection.renumber insertion name).AsRead := by
  cases subsection with
  | unknown kind payload => exact asRead
  | _ => trivial

namespace Section

variable {content : Section} (insertion : UInt32) (name : String)

theorem AsRead.renumber (asRead : content.AsRead) : (content.renumber insertion name).AsRead := by
  cases content with
  | custom title payload =>
      cases payload with
      | raw bytes => exact asRead
      | names subsections =>
          obtain ⟨called, each⟩ := asRead
          refine ⟨called, fun subsection inside => ?_⟩
          obtain ⟨original, there, rfl⟩ := List.mem_map.mp inside
          exact (each original there).renumber insertion name
  | _ => trivial

theorem tabled_renumber (tabled : ∀ instruction ∈ content.instructions, instruction.Tabled) :
    ∀ instruction ∈ (content.renumber insertion name).instructions, instruction.Tabled := by
  cases content with
  | custom title payload => cases payload <;> exact nofun
  | elements entries =>
      have same : (elements (entries.map (·.renumber insertion))).instructions =
          (elements entries).instructions := List.map_map
      exact same ▸ tabled
  | code bodies =>
      intro instruction listed
      obtain ⟨body, inside, held⟩ := List.mem_flatMap.mp listed
      obtain ⟨original, there, rfl⟩ := List.mem_map.mp inside
      obtain ⟨single, found, rfl⟩ := List.mem_map.mp held
      exact (tabled single (List.mem_flatMap_of_mem there found)).renumber insertion
  | _ => exact tabled

theorem WellFormed.renumber (wellFormed : content.WellFormed) :
    (content.renumber insertion name).WellFormed :=
  ⟨tabled_renumber insertion name wellFormed.tabled, wellFormed.asRead.renumber insertion name⟩

end Section

/-! ## Charging -/

/-- What passes an amount has a row in the table. -/
theorem Register.Passes.tabled {register : Register} {cost : Gas} {constant : Instruction}
    (passes : register.Passes cost constant) : constant.Tabled := by
  cases register with
  | i32 =>
      obtain ⟨_, _, rfl⟩ := passes
      have row : Instruction.Tabled ⟨"const", some .i32, some (.int32 0)⟩ := by decide +kernel
      exact row.of_shape rfl rfl rfl
  | i64 =>
      obtain ⟨_, _, rfl⟩ := passes
      have row : Instruction.Tabled ⟨"const", some .i64, some (.int64 0)⟩ := by decide +kernel
      exact row.of_shape rfl rfl rfl
  | f32 =>
      obtain ⟨_, _, rfl⟩ := passes
      have row : Instruction.Tabled ⟨"const", some .f32, some (.float32 0)⟩ := by decide +kernel
      exact row.of_shape rfl rfl rfl
  | f64 =>
      obtain ⟨_, _, rfl⟩ := passes
      have row : Instruction.Tabled ⟨"const", some .f64, some (.float64 0)⟩ := by decide +kernel
      exact row.of_shape rfl rfl rfl

namespace Meter

variable {meter : Meter}

theorem tabled_invocation (meter : Meter) : meter.invocation.Tabled := by
  have row : Instruction.Tabled ⟨"call", none, some (.index 0)⟩ := by decide +kernel
  exact row.of_shape rfl rfl rfl

/-- Every instruction of a charge has a row in the table. -/
theorem Pays.tabled {price : Gas} {charge : List Instruction} (pays : meter.Pays price charge) :
    ∀ instruction ∈ charge, instruction.Tabled := by
  rcases pays.empty_or_call with ⟨_, rfl⟩ | ⟨constant, passes, rfl⟩
  · exact nofun
  · exact List.forall_mem_cons.mpr
      ⟨passes.tabled, List.forall_mem_singleton.mpr meter.tabled_invocation⟩

/-- Charged code has rows in the table if its runs have. -/
theorem Charges.tabled {carried : Gas} {layout : List ChargedRun}
    (charges : meter.Charges carried layout)
    (tabled : ∀ charged ∈ layout, ∀ instruction ∈ charged.run, instruction.Tabled) :
    ∀ instruction ∈ layout.flatMap ChargedRun.code, instruction.Tabled := by
  induction layout generalizing carried with
  | nil => exact nofun
  | cons first others each =>
      obtain ⟨pays, rest⟩ := charges
      obtain ⟨run, more⟩ := List.forall_mem_cons.mp tabled
      exact List.forall_mem_append.mpr
        ⟨List.forall_mem_append.mpr ⟨pays.tabled, run⟩, each rest more⟩

/-- A metered body has rows in the table if the body had. -/
theorem MetersBody.tabled {signature : Signature} {body metered : FunctionBody}
    {layout : List ChargedRun} (meters : meter.MetersBody signature body metered layout)
    (tabled : ∀ instruction ∈ body.code, instruction.Tabled) :
    ∀ instruction ∈ metered.code, instruction.Tabled := by
  have whole : (layout.map (·.run)).flatten = (body.renumber meter.function).code :=
    meters.segments.flatten
  rw [meters.code]
  refine meters.charges.tabled fun charged inside instruction held => ?_
  have listed : instruction ∈ (body.renumber meter.function).code :=
    whole ▸ List.mem_flatten_of_mem (List.mem_map_of_mem inside) held
  obtain ⟨original, there, rfl⟩ := List.mem_map.mp listed
  exact (tabled original there).renumber meter.function

end Meter

namespace Module

variable {m metered : Module} {tariff : Tariff} {options : MeteringOptions} {gas : Gas}

/-- The bodies of a well formed module have rows in the table. -/
theorem tabled_bodies (wellFormed : m.WellFormed) :
    ∀ body ∈ m.bodies?.getD [], ∀ instruction ∈ body.code, instruction.Tabled := by
  intro body inside instruction held
  cases found : m.bodies? with
  | none =>
      rw [found] at inside
      cases inside
  | some bodies =>
      rw [found] at inside
      obtain ⟨content, listed, viewed⟩ := List.exists_of_findSome?_eq_some found
      cases content <;> cases viewed
      exact (wellFormed _ listed).tabled instruction (List.mem_flatMap_of_mem inside held)

/-- The bodies of a metered module have rows in the table. -/
theorem tabled_bodies_of_meter (wellFormed : m.WellFormed)
    (done : m.meter tariff options = .ok (metered, gas)) :
    ∀ body ∈ metered.bodies?.getD [], ∀ instruction ∈ body.code, instruction.Tabled := by
  intro body inside
  obtain ⟨i, bound, rfl⟩ := List.getElem_of_mem inside
  rw [length_bodies_of_meter done] at bound
  obtain ⟨_, _, other, _, _, _, found, meters⟩ :=
    metersBody_of_meter done (List.getElem?_eq_getElem bound)
  obtain ⟨_, rfl⟩ := List.getElem?_eq_some_iff.mp found
  exact meters.tabled (tabled_bodies wellFormed _ (List.getElem_mem bound))

/-- Metering keeps a module well-formed. -/
theorem WellFormed.meter (wellFormed : m.WellFormed)
    (done : m.meter tariff options = .ok (metered, gas)) : metered.WellFormed := by
  obtain ⟨typed, imported, callCost, first, entries, one, other, sections⟩ := sections_of_meter done
  have types : ∀ content ∈ typed, content.WellFormed :=
    one.forall_mem (fun _ => ⟨nofun, trivial⟩) wellFormed
  have imports : ∀ content ∈ imported, content.WellFormed :=
    other.forall_mem (fun _ => ⟨nofun, trivial⟩) types
  intro content inside
  obtain ⟨i, there⟩ := List.mem_iff_getElem?.mp inside
  obtain ⟨original, listed, meters⟩ := (forall₂_iff_getElem?.mp sections.flip).2 i content there
  cases meters with
  | @code _ others _ _ =>
      refine ⟨fun instruction held => ?_, trivial⟩
      obtain ⟨body, among, coded⟩ := List.mem_flatMap.mp held
      have kept : body ∈ metered.entries Section.bodies? := List.mem_flatMap_of_mem inside among
      rw [bodies_of_meter done] at kept
      exact tabled_bodies_of_meter wellFormed done body kept instruction coded
  | other _ =>
      obtain ⟨unmoved, before, rfl⟩ := List.mem_map.mp (List.mem_of_getElem? listed)
      exact (imports unmoved before).renumber m.importedFunctions options.functionName

end Module

end WasmGas

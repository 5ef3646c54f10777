import WasmGas.Proofs.Metering.Import
import WasmGas.Proofs.Metering.Layout

/-! # Every body is charged for

A module that could be metered has at most one code section, and its bodies are paired with its
functions by position. Each body keeps its locals, and its code is laid out in runs of
which the first pays for the signature of that very function and for its locals
(`Module.meter_bodies`).
-/

namespace WasmGas

/-! ## What the checks leave -/

namespace Module

variable {m : Module}

/-- A section that is repeated is refused. -/
theorem checkSingle_eq_ok {kind : SectionKind} :
    m.checkSingle kind = .ok () ↔ m.count kind ≤ 1 := by
  rw [checkSingle, Except.check_eq_ok, Nat.not_lt]
  exact and_iff_left rfl

/-- Bodies are in a code section. -/
theorem has_code_of_bodies? {bodies : List FunctionBody} (held : m.bodies? = some bodies) :
    m.has .code = true := by
  obtain ⟨content, inside, holds⟩ := List.exists_of_findSome?_eq_some held
  refine List.any_eq_true.mpr ⟨content, inside, ?_⟩
  cases content <;> first | rfl | cases holds

/-- Where bodies were checked there is one for each function. -/
theorem length_bodies_of_checkBodies {bodies : List FunctionBody}
    (checked : m.checkBodies = .ok ()) (held : m.bodies? = some bodies) :
    bodies.length = (m.typeIndices?.getD []).length := by
  have paired := (Except.check_eq_ok.mp checked).1
  rw [held, Option.getD_some] at paired
  by_contra other
  exact paired ⟨other, has_code_of_bodies? held⟩

end Module

/-- Each function has a known type. What is charged on entering it, apart from its locals, is the
price of that. -/
theorem entryCosts_eq_map {tariff : Tariff} {signatures : List Signature} {function : UInt32}
    {typeIndices : List UInt32} {entries : List Gas}
    (done : entryCosts tariff signatures function typeIndices = .ok entries) :
    ∃ defined : List Signature,
      typeIndices.map (fun typeIndex => signatures[typeIndex.toNat]?) = defined.map some ∧
        entries = defined.map tariff.signatureCost := by
  induction typeIndices generalizing function entries with
  | nil =>
      cases done
      exact ⟨[], rfl, rfl⟩
  | cons typeIndex others found =>
      rw [entryCosts] at done
      cases known : signatures[typeIndex.toNat]? with
      | none =>
          simp only [known] at done
          cases done
      | some signature =>
          simp only [known] at done
          obtain ⟨rest, further, put⟩ := Except.bind_eq_ok.mp done
          cases put
          obtain ⟨defined, typed, rfl⟩ := found further
          refine ⟨signature :: defined, ?_, rfl⟩
          rw [List.map_cons, known, typed, List.map_cons]

/-- The costs are in the order of the functions. -/
theorem entryCosts_eq_ok {tariff : Tariff} {signatures : List Signature} {function : UInt32}
    {typeIndices : List UInt32} {entries : List Gas}
    (done : entryCosts tariff signatures function typeIndices = .ok entries) :
    entries.length = typeIndices.length ∧
      ∀ {i : Nat} {typeIndex : UInt32}, typeIndices[i]? = some typeIndex →
        ∃ signature, signatures[typeIndex.toNat]? = some signature ∧
          entries[i]? = some (tariff.signatureCost signature) := by
  obtain ⟨defined, typed, rfl⟩ := entryCosts_eq_map done
  constructor
  · have lengths := congrArg List.length typed
    rw [List.length_map, List.length_map] at lengths
    rw [List.length_map, lengths]
  · intro i typeIndex there
    have place := congrArg (·[i]?) typed
    simp only [List.getElem?_map, there, Option.map_some] at place
    obtain ⟨signature, found, same⟩ := Option.map_eq_some_iff.mp place.symm
    exact ⟨signature, same.symm, by rw [List.getElem?_map, found, Option.map_some]⟩

/-- The functions behind one are numbered from its successor on. -/
theorem add_ofNat_succ (function : UInt32) (place : Nat) :
    function + UInt32.ofNat (place + 1) = function + 1 + UInt32.ofNat place := by
  rw [Nat.add_comm, UInt32.ofNat_add, UInt32.add_assoc]
  rfl

namespace Meter

variable {meter : Meter} {callCost gas : Gas}

/-- Bodies are charged for one by one. -/
theorem meterBodies_eq_ok {function : UInt32} {entries : List Gas}
    {bodies metered : List FunctionBody} (paired : entries.length = bodies.length)
    (done : meter.meterBodies callCost function entries bodies = .ok (metered, gas)) :
    metered.length = bodies.length ∧ ∀ {i entry body}, entries[i]? = some entry →
      bodies[i]? = some body → ∃ code,
        meter.meterBody callCost entry (function + UInt32.ofNat i) body = .ok code ∧
          metered[i]? = some { body with code := code.code } := by
  induction bodies generalizing function entries metered gas with
  | nil =>
      obtain rfl := List.length_eq_zero_iff.mp paired
      cases done
      exact ⟨rfl, nofun⟩
  | cons body others charged =>
      cases entries with
      | nil => cases paired
      | cons entry more =>
          obtain ⟨first, one, rest⟩ := Except.bind_eq_ok.mp done
          obtain ⟨⟨behind, remaining⟩, further, put⟩ := Except.bind_eq_ok.mp rest
          cases put
          obtain ⟨counted, each⟩ := charged (Nat.succ.inj paired) further
          refine ⟨congrArg Nat.succ counted, ?_⟩
          intro i cost held paid there
          cases i with
          | zero =>
              cases paid
              cases there
              refine ⟨first, ?_, rfl⟩
              have place : function + UInt32.ofNat Nat.zero = function := UInt32.add_zero function
              rw [place]
              exact one
          | succ i =>
              obtain ⟨code, found, last⟩ := each paid there
              refine ⟨code, ?_, last⟩
              rw [add_ofNat_succ]
              exact found

/-- A section without bodies is left as it is. -/
theorem meterSections_cons_other {first : UInt32} {entries : List Gas} {other : Section}
    (silent : other.bodies? = none) (rest : List Section) :
    meter.meterSections callCost first entries (other :: rest) = (do
      let (others, gas) ← meter.meterSections callCost first entries rest
      return (other :: others, gas)) := by
  cases other <;> first | rfl | cases silent

/-- Only the bodies of the first code section are changed. -/
theorem meterSections_eq_ok {first : UInt32} {entries : List Gas}
    {sections metered : List Section}
    (done : meter.meterSections callCost first entries sections = .ok (metered, gas)) :
    match sections.findSome? Section.bodies? with
    | some bodies => ∃ others more,
        meter.meterBodies callCost first entries bodies = .ok (others, more) ∧
          metered.findSome? Section.bodies? = some others
    | none => metered.findSome? Section.bodies? = none := by
  induction sections generalizing metered gas with
  | nil =>
      cases done
      rfl
  | cons head tail charged =>
      rw [List.findSome?_cons]
      cases held : head.bodies? with
      | some bodies =>
          cases head <;> cases held
          obtain ⟨⟨others, more⟩, one, rest⟩ := Except.bind_eq_ok.mp done
          obtain ⟨⟨behind, remaining⟩, _, put⟩ := Except.bind_eq_ok.mp rest
          cases put
          exact ⟨others, more, one, rfl⟩
      | none =>
          rw [meterSections_cons_other held] at done
          obtain ⟨⟨behind, remaining⟩, further, put⟩ := Except.bind_eq_ok.mp done
          cases put
          rw [List.findSome?_cons, held]
          exact charged further

/-- A module is metered by its sections, once the costs of entry are known. -/
theorem meterModule_eq_ok {imported metered : Module}
    (done : meter.meterModule imported = .ok (metered, gas)) :
    ∃ entries sections, imported.entryCosts meter.tariff (meter.function + 1) = .ok entries ∧
      meter.meterSections meter.ownCost (meter.function + 1) entries imported.sections =
        .ok (sections, gas) ∧ metered = { imported with sections } := by
  rw [meterModule, callCost_eq_ok] at done
  obtain ⟨_, same, rest⟩ := Except.bind_eq_ok.mp done
  cases same
  obtain ⟨entries, known, rest⟩ := Except.bind_eq_ok.mp rest
  obtain ⟨⟨sections, total⟩, charged, put⟩ := Except.bind_eq_ok.mp rest
  cases put
  exact ⟨entries, sections, known, charged, rfl⟩

end Meter

namespace Module

/-- The meter for a module. -/
def meterOf (m : Module) (tariff : Tariff) (options : MeteringOptions) : Meter :=
  ⟨tariff, options.register, m.importedFunctions⟩

variable {m metered : Module} {tariff : Tariff} {options : MeteringOptions} {gas : Gas}

/-- The costs of entry are known if the bodies fit the functions and each function has a type. -/
theorem entryCosts_eq_ok {imported : Module} {first : UInt32} {entries : List Gas}
    (done : imported.entryCosts tariff first = .ok entries) :
    imported.count .code ≤ 1 ∧ imported.checkBodies = .ok () ∧
      WasmGas.entryCosts tariff (imported.signatures?.getD []) first
        (imported.typeIndices?.getD []) = .ok entries := by
  obtain ⟨_, _, rest⟩ := Except.bind_eq_ok.mp done
  obtain ⟨_, single, rest⟩ := Except.bind_eq_ok.mp rest
  obtain ⟨_, checked, rest⟩ := Except.bind_eq_ok.mp rest
  exact ⟨checkSingle_eq_ok.mp single, checked, rest⟩

/-- A module is metered if nothing has the name of the metering function yet. -/
theorem meter_eq_ok (done : m.meter tariff options = .ok (metered, gas)) :
    m.conflict? options = none ∧
      (m.meterOf tariff options).meterModule (m.withMeteringImport options) =
        .ok (metered, gas) := by
  unfold meter at done
  cases conflict : m.conflict? options with
  | some entry =>
      simp only [conflict] at done
      cases done
  | none =>
      simp only [conflict] at done
      exact ⟨rfl, done⟩

/-- A module that is metered has one code section at most. -/
theorem count_code_of_meter (done : m.meter tariff options = .ok (metered, gas)) :
    m.count .code ≤ 1 := by
  obtain ⟨entries, sections, known, _, _⟩ := Meter.meterModule_eq_ok (meter_eq_ok done).2
  have single := (entryCosts_eq_ok known).1
  rwa [count_code_withMeteringImport] at single

/-- What is made of a body is the body with a charge before each of its runs. -/
theorem metersBody_of_meterBody {meter : Meter} {signature : Signature} {body : FunctionBody}
    {function : UInt32} {code : MeteredCode}
    (done : meter.meterBody meter.ownCost (meter.tariff.signatureCost signature) function
      (body.renumber meter.function) = .ok code) :
    ∃ layout, meter.MetersBody signature body
      { body.renumber meter.function with code := code.code } layout := by
  obtain ⟨layout, segments, charges, laidOut⟩ := Meter.meterCode_eq_ok done
  exact ⟨layout, rfl, segments, charges, laidOut⟩

/-- The bodies of a metered module, with the costs that they were paired with. -/
theorem meterBodies_of_meter (done : m.meter tariff options = .ok (metered, gas))
    {bodies : List FunctionBody} (held : m.bodies? = some bodies) :
    ∃ entries others more, WasmGas.entryCosts tariff (m.signatures?.getD [] ++ [options.signature])
        (m.importedFunctions + 1) (m.typeIndices?.getD []) = .ok entries ∧
      entries.length = bodies.length ∧ metered.bodies? = some others ∧
      (m.meterOf tariff options).meterBodies (m.meterOf tariff options).ownCost
        (m.importedFunctions + 1) entries (bodies.map (·.renumber m.importedFunctions)) =
          .ok (others, more) := by
  obtain ⟨entries, sections, known, charged, rfl⟩ := Meter.meterModule_eq_ok (meter_eq_ok done).2
  obtain ⟨_, checked, costs⟩ := entryCosts_eq_ok known
  have renumbered : (m.withMeteringImport options).bodies? =
      some (bodies.map (·.renumber m.importedFunctions)) := by
    rw [bodies?_withMeteringImport, held, Option.map_some]
  have paired := length_bodies_of_checkBodies checked renumbered
  have looked := Meter.meterSections_eq_ok charged
  rw [← bodies?, renumbered] at looked
  obtain ⟨others, more, one, result⟩ := looked
  rw [typeIndices?_withMeteringImport] at paired costs
  rw [signatures?_withMeteringImport, Option.getD_some] at costs
  refine ⟨entries, others, more, costs, ?_, result, one⟩
  rw [(WasmGas.entryCosts_eq_ok costs).1, ← paired, List.length_map]

/-- No body is lost and none is added. -/
theorem length_bodies_of_meter (done : m.meter tariff options = .ok (metered, gas)) :
    (metered.bodies?.getD []).length = (m.bodies?.getD []).length := by
  cases held : m.bodies? with
  | some bodies =>
      obtain ⟨entries, others, more, _, paired, result, one⟩ := meterBodies_of_meter done held
      have lengths : entries.length = (bodies.map (·.renumber m.importedFunctions)).length := by
        rw [paired, List.length_map]
      rw [result, Option.getD_some, (Meter.meterBodies_eq_ok lengths one).1, List.length_map,
        Option.getD_some]
  | none =>
      obtain ⟨entries, sections, _, charged, rfl⟩ := Meter.meterModule_eq_ok (meter_eq_ok done).2
      have looked := Meter.meterSections_eq_ok charged
      rw [← bodies?, bodies?_withMeteringImport, held, Option.map_none] at looked
      rw [bodies?, looked, Option.getD_none]

/-- Each body is metered as that of the function at its place. -/
theorem metersBody_of_meter (done : m.meter tariff options = .ok (metered, gas)) {i : Nat}
    {body : FunctionBody} (there : (m.bodies?.getD [])[i]? = some body) :
    ∃ (typeIndex : UInt32) (signature : Signature) (other : FunctionBody)
      (layout : List ChargedRun),
      (m.typeIndices?.getD [])[i]? = some typeIndex ∧
      (m.signatures?.getD [] ++ [options.signature])[typeIndex.toNat]? = some signature ∧
      (metered.bodies?.getD [])[i]? = some other ∧
      (m.meterOf tariff options).MetersBody signature body other layout := by
  cases held : m.bodies? with
  | none =>
      rw [held] at there
      cases there
  | some bodies =>
      rw [held, Option.getD_some] at there
      obtain ⟨entries, others, more, costs, paired, result, one⟩ := meterBodies_of_meter done held
      obtain ⟨counted, each⟩ := WasmGas.entryCosts_eq_ok costs
      obtain ⟨typeIndex, declared⟩ :
          ∃ typeIndex, (m.typeIndices?.getD [])[i]? = some typeIndex := by
        obtain ⟨bound, _⟩ := List.getElem?_eq_some_iff.mp there
        rw [← paired, counted] at bound
        exact ⟨_, List.getElem?_eq_getElem bound⟩
      obtain ⟨signature, typed, paid⟩ := each declared
      have moved : (bodies.map (·.renumber m.importedFunctions))[i]? =
          some (body.renumber m.importedFunctions) := by
        rw [List.getElem?_map, there, Option.map_some]
      have lengths : entries.length = (bodies.map (·.renumber m.importedFunctions)).length := by
        rw [paired, List.length_map]
      obtain ⟨code, charge, last⟩ := (Meter.meterBodies_eq_ok lengths one).2 paid moved
      obtain ⟨layout, meters⟩ := metersBody_of_meterBody charge
      refine ⟨typeIndex, signature, _, layout, declared, typed, ?_, meters⟩
      rw [result]
      exact last

/-- No original call goes to the metering function, unless there is no index left for it. -/
theorem callTarget?_ne_of_mem (few : (m.imports?.getD []).countP (·.isFunction) + 1 < UInt32.size)
    {body : FunctionBody} {instruction : Instruction}
    (inside : instruction ∈ (body.renumber m.importedFunctions).code) :
    instruction.callTarget? ≠ some m.importedFunctions := by
  obtain ⟨original, _, rfl⟩ := List.mem_map.mp inside
  refine original.callTarget?_renumber_ne ?_
  rw [m.toNat_importedFunctions (Nat.lt_of_succ_lt few)]
  exact few

/-- **The structure of metered code.** The code of each body is cut into runs in the only
possible way; in front of each run is exactly what the run is charged with, the first one also
with the signature and the locals of the function. Without the calls of the metering function
it is the original code. -/
theorem meter_bodies (few : (m.imports?.getD []).countP (·.isFunction) + 1 < UInt32.size)
    (done : m.meter tariff options = .ok (metered, gas)) :
    m.count .code ≤ 1 ∧ (metered.bodies?.getD []).length = (m.bodies?.getD []).length ∧
      ∀ (i : Nat) (body : FunctionBody), (m.bodies?.getD [])[i]? = some body →
        ∃ (typeIndex : UInt32) (signature : Signature) (other : FunctionBody)
          (layout : List ChargedRun),
        (m.typeIndices?.getD [])[i]? = some typeIndex ∧
        (m.signatures?.getD [] ++ [options.signature])[typeIndex.toNat]? = some signature ∧
        (metered.bodies?.getD [])[i]? = some other ∧
        (m.meterOf tariff options).MetersBody signature body other layout ∧
        (∀ segments, Segments (body.renumber m.importedFunctions).code segments →
          segments = layout.map (·.run)) ∧
        withoutCalls m.importedFunctions other.code =
          (body.renumber m.importedFunctions).code := by
  refine ⟨count_code_of_meter done, length_bodies_of_meter done, fun i body held => ?_⟩
  obtain ⟨typeIndex, signature, other, layout, declared, typed, there, meters⟩ :=
    metersBody_of_meter done held
  refine ⟨typeIndex, signature, other, layout, declared, typed, there, meters, ?_, ?_⟩
  · intro segments cut
    exact meters.segments.unique cut
  · have whole : (layout.map (·.run)).flatten = (body.renumber m.importedFunctions).code :=
      meters.segments.flatten
    have left := withoutCalls_code meters.charges fun charged listed instruction inside => by
      have original : instruction ∈ (body.renumber m.importedFunctions).code := by
        rw [← whole]
        exact List.mem_flatten_of_mem (List.mem_map_of_mem listed) inside
      exact callTarget?_ne_of_mem few original
    rw [meters.code, ← whole]
    exact left

/-- A tariff by which parameters cost 3 units, groups of locals 2 and instructions 1. -/
def unitTariff : Tariff :=
  [("code", .tariff [("code", .tariff [("DEFAULT", .flat (.cap 1))]),
      ("locals", .tariff [("DEFAULT", .flat (.cap 1))])]),
    ("type", .tariff [("params", .tariff [("DEFAULT", .flat (.cap 3))])])]

/-- A body that calls its own function in a loop. -/
def loopingBody : FunctionBody where
  locals := [⟨1, .i64⟩]
  code := [⟨"loop", none, some (.blockType .empty)⟩, ⟨"get", some .local, some (.index 0)⟩,
    ⟨"call", none, some (.index 1)⟩, ⟨"br_if", none, some (.index 0)⟩, ⟨"end", none, none⟩,
    ⟨"end", none, none⟩]

def looping : Module where
  sections := [.types [⟨.func, [.i32], []⟩], .imports [⟨"env", "f", .function 0⟩],
    .functions [0], .code [loopingBody]]

/-- What becomes of `loopingBody` in `looping` by `unitTariff`. -/
def loopingCode : List Instruction :=
  [⟨"const", some .i64, some (.int64 8)⟩, ⟨"call", none, some (.index 1)⟩,
    ⟨"loop", none, some (.blockType .empty)⟩,
    ⟨"const", some .i64, some (.int64 5)⟩, ⟨"call", none, some (.index 1)⟩,
    ⟨"get", some .local, some (.index 0)⟩, ⟨"call", none, some (.index 2)⟩,
    ⟨"br_if", none, some (.index 0)⟩,
    ⟨"const", some .i64, some (.int64 3)⟩, ⟨"call", none, some (.index 1)⟩, ⟨"end", none, none⟩,
    ⟨"const", some .i64, some (.int64 3)⟩, ⟨"call", none, some (.index 1)⟩, ⟨"end", none, none⟩]

/-- What becomes of `looping` by `unitTariff`. -/
def loopingMetered : Module where
  sections := [.types [⟨.func, [.i32], []⟩, ⟨.func, [.i64], []⟩],
    .imports [⟨"env", "f", .function 0⟩, ⟨"metering", "usegas", .function 1⟩],
    .functions [0], .code [⟨[⟨1, .i64⟩], loopingCode⟩]]

/-- The body of a module with a loop, and where its charges stand. -/
theorem meter_bodies_looping :
    (looping.imports?.getD []).countP (·.isFunction) + 1 < UInt32.size ∧
      looping.meter unitTariff {} = .ok (loopingMetered, .cap 19) ∧
      ∃ layout, (looping.meterOf unitTariff {}).MetersBody ⟨.func, [.i32], []⟩ loopingBody
          ⟨loopingBody.locals, loopingCode⟩ layout ∧
        withoutCalls 1 loopingCode = (loopingBody.renumber 1).code := by
  have few : (looping.imports?.getD []).countP (·.isFunction) + 1 < UInt32.size := by decide
  have done : looping.meter unitTariff {} = .ok (loopingMetered, .cap 19) := by decide +kernel
  obtain ⟨_, _, each⟩ := meter_bodies few done
  obtain ⟨typeIndex, signature, other, layout, declared, typed, there, meters, _, left⟩ :=
    each 0 loopingBody rfl
  cases declared
  cases typed
  cases there
  exact ⟨few, done, layout, meters, left⟩

end Module

end WasmGas

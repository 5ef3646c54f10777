import WasmGas.Proofs.Metering.Comparison

/-! # The priced shape

The gas of a module goes by the signatures of its functions, the types of their locals and the
names of their instructions, and by nothing else: two modules that agree in these
(`Module.PricedAlike`) are charged the same by a tariff, in front of the same runs
(`Module.meter_pricedAlike`).
-/

namespace WasmGas

/-- Where code is cut goes by its names. -/
theorem runs_of_names {code other : List Instruction}
    (same : code.map (·.name) = other.map (·.name)) :
    (runs code).1.map (List.map (·.name)) = (runs other).1.map (List.map (·.name)) ∧
      (runs code).2.map (·.name) = (runs other).2.map (·.name) := by
  induction code generalizing other with
  | nil =>
      obtain rfl := List.map_eq_nil_iff.mp same.symm
      exact ⟨rfl, rfl⟩
  | cons head tail cut =>
      obtain ⟨first, rest, rfl, named, others⟩ := List.map_eq_cons_iff.mp same.symm
      obtain ⟨complete, unfinished⟩ := cut others.symm
      have branch : head.isBranch = first.isBranch := by
        rw [Instruction.isBranch, Instruction.isBranch, named]
      rw [runs, runs, branch]
      cases first.isBranch with
      | true =>
          simp only [↓reduceIte, List.map_cons, List.map_nil, named, complete, unfinished, and_self]
      | false =>
          -- The instruction goes in front of the next run, or of the rest if there is none.
          simp only [Bool.false_eq_true, ↓reduceIte]
          cases found : (runs tail).1 with
          | nil =>
              rw [found] at complete
              rw [List.map_eq_nil_iff.mp complete.symm]
              simp only [List.map_nil, List.map_cons, named, unfinished, and_self]
          | cons run more =>
              rw [found] at complete
              obtain ⟨_, _, split, alike, further⟩ := List.map_eq_cons_iff.mp complete.symm
              rw [split]
              simp only [List.map_cons, named, alike, further, unfinished, and_self]

/-- What has a price in a body: the types of its locals, and the names in its code. -/
structure PricedBody where
  locals : List ValueType
  code : List String
  deriving DecidableEq, Repr

def FunctionBody.priced (body : FunctionBody) : PricedBody :=
  ⟨body.locals.map (·.type), body.code.map (·.name)⟩

/-- Renumbering changes nothing that has a price. -/
theorem FunctionBody.priced_renumber (insertion : UInt32) (body : FunctionBody) :
    (body.renumber insertion).priced = body.priced := by
  unfold priced renumber
  rw [List.map_map]
  exact congrArg _ (List.map_congr_left fun instruction _ => instruction.name_renumber insertion)

/-- Renumbering bodies changes nothing that has a price. -/
theorem FunctionBody.map_priced_renumber (insertion : UInt32) (bodies : List FunctionBody) :
    (bodies.map (·.renumber insertion)).map priced = bodies.map priced := by
  rw [List.map_map]
  exact List.map_congr_left fun body _ => body.priced_renumber insertion

/-- Whether modules agree in all that has a price: each function has a signature in the type section
of its own module, the same in both, and a body in which the same things have prices. -/
structure Module.PricedAlike (one other : Module) : Prop where
  typed : ∀ defined ∈ one.definedSignatures (one.signatures?.getD []), defined.isSome = true
  signatures : one.definedSignatures (one.signatures?.getD []) =
    other.definedSignatures (other.signatures?.getD [])
  bodies : (one.entries Section.bodies?).map FunctionBody.priced =
    (other.entries Section.bodies?).map FunctionBody.priced

namespace Meter

variable {meter other : Meter}

/-- What is charged for a price depends on the tariff alone. -/
theorem amount_of_tariff (same : other.tariff = meter.tariff) : other.amount = meter.amount := by
  funext price
  rw [amount, amount, ownCost, ownCost, same]

/-- What bodies are charged depends on what has a price in them. -/
theorem bodyAmounts_of_priced (same : other.tariff = meter.tariff)
    {bodies others : List FunctionBody}
    (alike : bodies.map FunctionBody.priced = others.map FunctionBody.priced)
    (entries : List Gas) : meter.bodyAmounts entries bodies = other.bodyAmounts entries others := by
  induction bodies generalizing others entries with
  | nil =>
      rw [List.map_eq_nil_iff.mp alike.symm, bodyAmounts_nil, bodyAmounts_nil]
  | cons body rest equal =>
      obtain ⟨first, behind, rfl, priced, further⟩ := List.map_eq_cons_iff.mp alike.symm
      cases entries with
      | nil => rfl
      | cons entry more =>
          have types : body.locals.map (·.type) = first.locals.map (·.type) :=
            congrArg PricedBody.locals priced.symm
          have names : body.code.map (·.name) = first.code.map (·.name) :=
            congrArg PricedBody.code priced.symm
          rw [bodyAmounts, bodyAmounts, equal further.symm, amounts_eq, amounts_eq,
            (runs_of_names names).1, amount_of_tariff same, same,
            Tariff.localsCost_of_types _ types]

/-- Whether two runs of the same names are charged alike: there is a call in front of both or of
neither, and the price is the same. -/
structure ChargesAlike (meter other : Meter) (one another : ChargedRun) : Prop where
  names : one.run.map (·.name) = another.run.map (·.name)
  called : one.charge = [] ↔ another.charge = []
  price : ∃ price, meter.Pays price one.charge ∧ other.Pays price another.charge

/-- There is no charge just where there is no price. -/
theorem Pays.eq_nil_iff {price : Gas} {charge : List Instruction} (pays : meter.Pays price charge) :
    charge = [] ↔ price = 0 := by
  by_cases free : price = 0
  · rw [Pays, if_pos free] at pays
    exact iff_of_true pays free
  · rw [Pays, if_neg free] at pays
    obtain ⟨constant, _, rfl⟩ := pays
    exact iff_of_false (List.cons_ne_nil _ _) free

end Meter

namespace Module

variable {m m' metered metered' : Module} {tariff : Tariff} {options options' : MeteringOptions}
  {gas gas' : Gas}

/-- The signature of the metering function makes no difference to such modules. -/
theorem PricedAlike.definedSignatures_append (alike : m.PricedAlike m')
    (options options' : MeteringOptions) :
    m.definedSignatures (m.signatures?.getD [] ++ [options.signature]) =
      m'.definedSignatures (m'.signatures?.getD [] ++ [options'.signature]) := by
  rw [Module.definedSignatures_append alike.typed,
    Module.definedSignatures_append (alike.signatures ▸ alike.typed), alike.signatures]

/-- Modules that agree in all that has a price are charged the same. -/
theorem gas_eq_of_pricedAlike (alike : m.PricedAlike m')
    (done : m.meter tariff options = .ok (metered, gas))
    (done' : m'.meter tariff options' = .ok (metered', gas')) : gas = gas' := by
  obtain ⟨defined, typed, outcome⟩ := definedSignatures_of_meter done
  obtain ⟨defined', typed', outcome'⟩ := definedSignatures_of_meter done'
  have signatures := alike.definedSignatures_append options options'
  rw [typed, typed'] at signatures
  obtain rfl := (List.map_inj_right fun _ _ => Option.some.inj).mp signatures
  have bodies := alike.bodies
  rw [entries_bodies (meterable_of_meter done).code,
    entries_bodies (meterable_of_meter done').code,
    ← FunctionBody.map_priced_renumber m.importedFunctions (m.bodies?.getD []),
    ← FunctionBody.map_priced_renumber m'.importedFunctions (m'.bodies?.getD [])] at bodies
  have charged := outcome tariff
  have charged' := outcome' tariff
  rw [done] at charged
  rw [done'] at charged'
  have amounts := @Meter.bodyAmounts_of_priced (m.meterOf tariff options)
    (m'.meterOf tariff options') rfl _ _ bodies (defined.map tariff.signatureCost)
  exact charged.of_ok.trans ((congrArg List.sum amounts).trans charged'.of_ok.symm)

/-- Bodies that agree in all that has a price have like charges at like places. -/
theorem layout_alike {signature : Signature} {body body' one other : FunctionBody}
    {layout layout' : List ChargedRun} (priced : body.priced = body'.priced)
    (meters : (m.meterOf tariff options).MetersBody signature body one layout)
    (meters' : (m'.meterOf tariff options').MetersBody signature body' other layout') :
    List.Forall₂ ((m.meterOf tariff options).ChargesAlike (m'.meterOf tariff options'))
      layout layout' := by
  have names : (body.renumber m.importedFunctions).code.map (·.name) =
      (body'.renumber m'.importedFunctions).code.map (·.name) :=
    congrArg PricedBody.code
      ((body.priced_renumber _).trans (priced.trans (body'.priced_renumber _).symm))
  have cut : Segments (body.renumber m.importedFunctions).code (layout.map (·.run)) :=
    meters.segments
  have cut' : Segments (body'.renumber m'.importedFunctions).code (layout'.map (·.run)) :=
    meters'.segments
  have runs := (runs_of_names names).1
  rw [runs_of_segments cut, runs_of_segments cut', ← names_layout, ← names_layout] at runs
  have locals := tariff.localsCost_of_types (congrArg PricedBody.locals priced)
  have prices : List.Forall₂ (· = ·)
      (tariff.prices (tariff.signatureCost signature + tariff.localsCost body.locals)
        (layout.map ChargedRun.names))
      (tariff.prices (tariff.signatureCost signature + tariff.localsCost body'.locals)
        (layout'.map ChargedRun.names)) := by
    rw [locals, runs]
    exact List.forall₂_refl _
  have compared := meters.charges.compare meters'.charges prices
  refine List.Forall₂.mp ?_ ((map_eq_map_iff_forall₂ Iff.rfl).mp runs) compared
  rintro one another same ⟨price, _, rfl, pays, pays'⟩
  exact ⟨same, pays.eq_nil_iff.trans pays'.eq_nil_iff.symm, price, pays, pays'⟩

/-- **Gas goes by the priced shape alone.** Modules that agree in all that has a price are charged
the same gas, with calls in front of the same runs, whatever else they hold and whatever the names
and the register of the metering function. -/
theorem meter_pricedAlike (alike : m.PricedAlike m')
    (done : m.meter tariff options = .ok (metered, gas))
    (done' : m'.meter tariff options' = .ok (metered', gas')) :
    gas = gas' ∧ ∀ (i : Nat) (body body' : FunctionBody),
      (m.entries Section.bodies?)[i]? = some body →
      (m'.entries Section.bodies?)[i]? = some body' →
        ∃ (signature : Signature) (one other : FunctionBody) (layout layout' : List ChargedRun),
          (metered.entries Section.bodies?)[i]? = some one ∧
          (metered'.entries Section.bodies?)[i]? = some other ∧
          (m.meterOf tariff options).MetersBody signature body one layout ∧
          (m'.meterOf tariff options').MetersBody signature body' other layout' ∧
          List.Forall₂ ((m.meterOf tariff options).ChargesAlike (m'.meterOf tariff options'))
            layout layout' := by
  have signatures := alike.definedSignatures_append options options'
  refine ⟨gas_eq_of_pricedAlike alike done done', ?_⟩
  intro i body body' there there'
  obtain ⟨signature, one, layout, typed, found, meters⟩ := metersBody_of_entries done there
  obtain ⟨_, other, layout', typed', found', meters'⟩ := metersBody_of_entries done' there'
  rw [signatures, typed'] at typed
  cases typed
  have priced : body.priced = body'.priced := by
    have same := congrArg (·[i]?) alike.bodies
    simpa only [List.getElem?_map, there, there', Option.map_some, Option.some.injEq] using same
  exact ⟨signature, one, other, layout, layout', found, found', meters, meters',
    layout_alike priced meters meters'⟩

/-- A body in which the same things have prices as in `loopingBody`. -/
def lookalikeBody : FunctionBody where
  locals := [⟨9, .i64⟩]
  code := [⟨"loop", none, some (.blockType .empty)⟩, ⟨"get", some .global, some (.index 3)⟩,
    ⟨"call", none, some (.index 0)⟩, ⟨"br_if", none, some (.index 1)⟩, ⟨"end", none, none⟩,
    ⟨"end", none, none⟩]

/-- A module that agrees with `looping` in all that has a price, and in little else. -/
def lookalike : Module where
  sections := [.types [⟨.func, [.i64], [.i32]⟩, ⟨.func, [.i32], []⟩], .functions [1],
    .exports [⟨"run", .function, 0⟩], .code [lookalikeBody]]

/-- What becomes of `lookalike` by `unitTariff` if the metering function takes an `i32`. -/
def lookalikeMetered : Module where
  sections := [.types [⟨.func, [.i64], [.i32]⟩, ⟨.func, [.i32], []⟩, ⟨.func, [.i32], []⟩],
    .imports [⟨"env", "tick", .function 2⟩], .functions [1], .exports [⟨"run", .function, 1⟩],
    .code [⟨[⟨9, .i64⟩], [⟨"const", some .i32, some (.int32 8)⟩, ⟨"call", none, some (.index 0)⟩,
      ⟨"loop", none, some (.blockType .empty)⟩,
      ⟨"const", some .i32, some (.int32 5)⟩, ⟨"call", none, some (.index 0)⟩,
      ⟨"get", some .global, some (.index 3)⟩, ⟨"call", none, some (.index 1)⟩,
      ⟨"br_if", none, some (.index 1)⟩,
      ⟨"const", some .i32, some (.int32 3)⟩, ⟨"call", none, some (.index 0)⟩, ⟨"end", none, none⟩,
      ⟨"const", some .i32, some (.int32 3)⟩, ⟨"call", none, some (.index 0)⟩,
      ⟨"end", none, none⟩]⟩]]

/-- A module that looks different and is charged the same. -/
theorem meter_pricedAlike_looping :
    looping.PricedAlike lookalike ∧
      looping.meter unitTariff {} = .ok (loopingMetered, .cap 19) ∧
      lookalike.meter unitTariff ⟨"env", "tick", .i32⟩ = .ok (lookalikeMetered, .cap 19) ∧
      ∃ (signature : Signature) (one other : FunctionBody) (layout layout' : List ChargedRun),
        (loopingMetered.entries Section.bodies?)[0]? = some one ∧
        (lookalikeMetered.entries Section.bodies?)[0]? = some other ∧
        (looping.meterOf unitTariff {}).MetersBody signature loopingBody one layout ∧
        (lookalike.meterOf unitTariff ⟨"env", "tick", .i32⟩).MetersBody signature lookalikeBody
          other layout' ∧
        List.Forall₂ ((looping.meterOf unitTariff {}).ChargesAlike
          (lookalike.meterOf unitTariff ⟨"env", "tick", .i32⟩)) layout layout' := by
  have alike : looping.PricedAlike lookalike :=
    { typed := by decide, signatures := by decide, bodies := by decide }
  have done : looping.meter unitTariff {} = .ok (loopingMetered, .cap 19) := by decide +kernel
  have done' : lookalike.meter unitTariff ⟨"env", "tick", .i32⟩ =
    .ok (lookalikeMetered, .cap 19) := by decide +kernel
  exact ⟨alike, done, done',
    (meter_pricedAlike alike done done').2 0 loopingBody lookalikeBody rfl rfl⟩

end Module

end WasmGas

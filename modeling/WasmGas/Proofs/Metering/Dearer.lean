import WasmGas.Proofs.Metering.Comparison
import WasmGas.Proofs.Price.Order

/-! # Dearer tariffs charge more

If each price in a tariff is at most the one in another (`Tariff.AtMost`), then each run is charged
at most as much. That holds as well for a run that is free by the one tariff and not by the other,
for the call in front of it only adds to its price (`Meter.amount_le`). So what is metered by the
dearer tariff is metered by the cheaper one too (`Module.meter_dearer`).
-/

namespace WasmGas

namespace Tariff

variable {cheap dear : Tariff}

/-- What names cost does not fall with a dearer tariff. -/
theorem namesCost_le (cheaper : cheap.AtMost dear) (names : List String) :
    cheap.namesCost names ≤ dear.namesCost names :=
  List.sum_le_sum fun name _ => priceName_le ((cheaper.sub "code").sub "code") name le_rfl

/-- What runs cost does not fall with a dearer tariff. -/
theorem prices_le (cheaper : cheap.AtMost dear) {carried more : Gas} (below : carried ≤ more)
    (segments : List (List String)) :
    List.Forall₂ (· ≤ ·) (cheap.prices carried segments) (dear.prices more segments) := by
  induction segments generalizing carried more with
  | nil => exact .nil
  | cons names others rest =>
      exact .cons (add_le_add below (namesCost_le cheaper names)) (rest le_rfl)

end Tariff

/-- A register that can hold an amount can hold each lower one. -/
theorem Register.holds_of_le {register : Register} {cost more : Gas} (below : cost ≤ more)
    (holds : register.holds more = true) : register.holds cost = true := by
  have units := Gas.le_def.mp below
  cases register with
  | i32 => exact decide_eq_true (Nat.lt_of_le_of_lt units (of_decide_eq_true holds))
  | i64 => exact decide_eq_true (Nat.lt_of_le_of_lt units (of_decide_eq_true holds))
  | f32 => rfl
  | f64 => rfl

/-- If a register can hold some amounts then lower ones are charged, for at most as much gas. -/
theorem Register.Outcome.of_le {α : Type} {register : Register} {gas : α → Gas}
    {amounts more : List Gas} (below : List.Forall₂ (· ≤ ·) amounts more)
    {charging : Except MeteringError α} {dearer : α}
    (outcome : register.Outcome gas amounts charging)
    (outcome' : register.Outcome gas more (.ok dearer)) :
    ∃ cheaper, charging = .ok cheaper ∧ gas cheaper ≤ gas dearer := by
  cases outcome' with
  | charged holds total =>
      cases outcome with
      | @charged cheaper _ total' =>
          refine ⟨cheaper, rfl, ?_⟩
          rw [total, total']
          exact below.sum_le_sum
      | refused listed tooMuch =>
          obtain ⟨i, there⟩ := List.getElem?_of_mem listed
          obtain ⟨higher, found, atMost⟩ := (forall₂_iff_getElem?.mp below).2 i _ there
          rw [holds_of_le atMost (holds higher (List.mem_of_getElem? found))] at tooMuch
          cases tooMuch

namespace Meter

variable {meter other : Meter}

theorem ownCost_le (cheaper : meter.tariff.AtMost other.tariff) :
    meter.ownCost ≤ other.ownCost :=
  Tariff.namesCost_le cheaper ["const", "call"]

/-- A run that is no longer free is charged for the call as well, but that only adds to it. -/
theorem amount_le (cheaper : meter.tariff.AtMost other.tariff) {price more : Gas}
    (below : price ≤ more) : meter.amount price ≤ other.amount more := by
  unfold amount
  by_cases free : price = 0
  · rw [if_pos free]
    exact Gas.zero_le _
  · rw [if_neg free, if_neg (Gas.ne_zero_of_le below free)]
    exact add_le_add below (ownCost_le cheaper)

/-- What runs are charged does not fall with a dearer tariff. -/
theorem amounts_le (cheaper : meter.tariff.AtMost other.tariff) {carried more : Gas}
    (below : carried ≤ more) (segments : List (List Instruction)) :
    List.Forall₂ (· ≤ ·) (meter.amounts carried segments) (other.amounts more segments) := by
  rw [amounts_eq, amounts_eq, List.forall₂_map_left_iff, List.forall₂_map_right_iff]
  exact (Tariff.prices_le cheaper below _).imp fun _ _ => amount_le cheaper

/-- What bodies are charged does not fall with a dearer tariff. -/
theorem bodyAmounts_le (cheaper : meter.tariff.AtMost other.tariff) {entries more : List Gas}
    (below : List.Forall₂ (· ≤ ·) entries more) (bodies : List FunctionBody) :
    List.Forall₂ (· ≤ ·) (meter.bodyAmounts entries bodies) (other.bodyAmounts more bodies) := by
  induction below generalizing bodies with
  | nil => cases bodies <;> exact .nil
  | cons entry _ rest =>
      cases bodies with
      | nil => exact .nil
      | cons body others =>
          have carried := add_le_add entry (Tariff.localsCost_le cheaper body.locals)
          exact List.rel_append (amounts_le cheaper carried (runs body.code).1) (rest others)

end Meter

/-- Whether a run is charged at most what the same run is charged elsewhere: if there is a call in
front of it then there is one elsewhere, and it is not passed more if that is an integer. -/
structure ChargedRun.AtMost (register : Register) (one other : ChargedRun) : Prop where
  run : one.run = other.run
  called : one.charge ≠ [] → other.charge ≠ []
  passed : register = .i32 ∨ register = .i64 → one.charge ≠ [] →
    ∃ (constant larger call : Instruction) (amount more : Int),
      one.charge = [constant, call] ∧ other.charge = [larger, call] ∧
      constant.integer? = some amount ∧ larger.integer? = some more ∧ amount ≤ more

/-- A charge for the same run does not fall with a dearer tariff. -/
theorem Meter.Pays.atMost {meter : Meter} {dear : Tariff} (cheaper : meter.tariff.AtMost dear)
    {price more : Gas} (below : price ≤ more) {one other : ChargedRun} (same : one.run = other.run)
    (pays : meter.Pays price one.charge)
    (pays' : { meter with tariff := dear }.Pays more other.charge) :
    one.AtMost meter.register other := by
  by_cases free : price = 0
  · rw [Pays, if_pos free] at pays
    exact ⟨same, fun charged => absurd pays charged, fun _ charged => absurd pays charged⟩
  · rw [Pays, if_neg free] at pays
    rw [Pays, if_neg (Gas.ne_zero_of_le below free)] at pays'
    obtain ⟨constant, passes, charge⟩ := pays
    obtain ⟨larger, passes', charge'⟩ := pays'
    refine ⟨same, fun _ => charge' ▸ List.cons_ne_nil _ _, fun integer _ => ?_⟩
    have units := Gas.le_def.mp
      (add_le_add below (@ownCost_le meter { meter with tariff := dear } cheaper))
    exact ⟨constant, larger, meter.invocation, _, _, charge, charge',
      (passes.integer?_eq integer).1, (passes'.integer?_eq integer).1, Int.ofNat_le.mpr units⟩

namespace Module

variable {m metered' : Module} {options : MeteringOptions} {gas' : Gas}
  {cheap dear : Tariff}

/-- If the register holds all amounts by the dearer tariff then it holds the lower ones. -/
theorem meter_ok_of_dearer (cheaper : cheap.AtMost dear)
    (done : m.meter dear options = .ok (metered', gas')) :
    ∃ metered gas, m.meter cheap options = .ok (metered, gas) ∧ gas ≤ gas' := by
  obtain ⟨defined, _, outcome⟩ := definedSignatures_of_meter done
  have entries : List.Forall₂ (· ≤ ·) (defined.map cheap.signatureCost)
      (defined.map dear.signatureCost) := by
    rw [List.forall₂_map_left_iff, List.forall₂_map_right_iff]
    exact List.forall₂_same.mpr fun signature _ => Tariff.signatureCost_le cheaper signature
  have below := @Meter.bodyAmounts_le (m.meterOf cheap options) (m.meterOf dear options) cheaper _ _
    entries ((m.bodies?.getD []).map (·.renumber m.importedFunctions))
  have charged := outcome dear
  rw [done] at charged
  obtain ⟨⟨metered, gas⟩, accepted, less⟩ := (outcome cheap).of_le below charged
  exact ⟨metered, gas, accepted, less⟩

/-- The charges of a body do not fall with a dearer tariff. -/
theorem layout_atMost (cheaper : cheap.AtMost dear) {signature : Signature}
    {body one other : FunctionBody} {layout layout' : List ChargedRun}
    (meters : (m.meterOf cheap options).MetersBody signature body one layout)
    (meters' : (m.meterOf dear options).MetersBody signature body other layout') :
    List.Forall₂ (ChargedRun.AtMost options.register) layout layout' := by
  have runs : layout.map (·.run) = layout'.map (·.run) :=
    meters'.segments.unique meters.segments
  have carried := add_le_add (Tariff.signatureCost_le cheaper signature)
    (Tariff.localsCost_le cheaper body.locals)
  have names : layout.map ChargedRun.names = layout'.map ChargedRun.names := by
    rw [names_layout, names_layout, runs]
  -- The code is cut in one way only, so that the prices are those of the same runs.
  have prices := Tariff.prices_le cheaper carried (layout.map ChargedRun.names)
  nth_rewrite 2 [names] at prices
  have compared := meters.charges.compare meters'.charges prices
  refine List.Forall₂.mp ?_ ((map_eq_map_iff_forall₂ Iff.rfl).mp runs) compared
  intro one other same ⟨price, more, below, pays, pays'⟩
  exact @Meter.Pays.atMost (m.meterOf cheap options) dear cheaper price more below one other same
    pays pays'

/-- **A dearer tariff never charges less.** What is metered by the dearer one is metered by the
cheaper one as well, for at most as much gas in all, and each run of each body is charged at most
as much. -/
theorem meter_dearer (cheaper : cheap.AtMost dear)
    (done : m.meter dear options = .ok (metered', gas')) :
    ∃ metered gas, m.meter cheap options = .ok (metered, gas) ∧ gas.units ≤ gas'.units ∧
      ∀ (i : Nat) (body : FunctionBody), (m.entries Section.bodies?)[i]? = some body →
        ∃ (signature : Signature) (one other : FunctionBody) (layout layout' : List ChargedRun),
          (metered.entries Section.bodies?)[i]? = some one ∧
          (metered'.entries Section.bodies?)[i]? = some other ∧
          (m.meterOf cheap options).MetersBody signature body one layout ∧
          (m.meterOf dear options).MetersBody signature body other layout' ∧
          List.Forall₂ (ChargedRun.AtMost options.register) layout layout' := by
  obtain ⟨metered, gas, accepted, below⟩ := meter_ok_of_dearer cheaper done
  refine ⟨metered, gas, accepted, below, fun i body there => ?_⟩
  obtain ⟨signature, one, layout, typed, found, meters⟩ := metersBody_of_entries accepted there
  obtain ⟨_, other, layout', typed', found', meters'⟩ := metersBody_of_entries done there
  rw [typed] at typed'
  cases typed'
  exact ⟨signature, one, other, layout, layout', found, found', meters, meters',
    layout_atMost cheaper meters meters'⟩

/-- A tariff with the keys of `unitTariff` by which instructions are free. -/
def entryTariff : Tariff :=
  [("code", .tariff [("code", .tariff [("DEFAULT", .flat 0)]),
      ("locals", .tariff [("DEFAULT", .flat (.cap 1))])]),
    ("type", .tariff [("params", .tariff [("DEFAULT", .flat (.cap 3))])])]

/-- With free instructions `looping` is charged only for being entered. -/
theorem meter_dearer_looping :
    entryTariff.AtMost unitTariff ∧
      looping.meter unitTariff {} = .ok (loopingMetered, .cap 19) ∧
      ∃ metered gas, looping.meter entryTariff {} = .ok (metered, gas) ∧ gas.units ≤ 19 ∧
        ∃ (signature : Signature) (one other : FunctionBody) (layout layout' : List ChargedRun),
          (metered.entries Section.bodies?)[0]? = some one ∧
          (loopingMetered.entries Section.bodies?)[0]? = some other ∧
          (looping.meterOf entryTariff {}).MetersBody signature loopingBody one layout ∧
          (looping.meterOf unitTariff {}).MetersBody signature loopingBody other layout' ∧
          List.Forall₂ (ChargedRun.AtMost .i64) layout layout' := by
  have cheaper : entryTariff.AtMost unitTariff :=
    .cons (.tariff (.cons (.tariff (.cons (.flat (Gas.zero_le _)) .nil)) (.refl _))) (.refl _)
  have done : looping.meter unitTariff {} = .ok (loopingMetered, .cap 19) := by decide +kernel
  obtain ⟨metered, gas, accepted, below, each⟩ := meter_dearer cheaper done
  exact ⟨cheaper, done, metered, gas, accepted, below, each 0 loopingBody rfl⟩

end Module

end WasmGas

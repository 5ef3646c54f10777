import WasmGas.Binary
import WasmGas.Proofs.Metering.Conflicts
import WasmGas.Proofs.Metering.WellFormed

/-! # From file to file

A file is metered if a module is found in it, this module can be metered, and what becomes of it can
be written (`Binary.meter_eq_ok`). The last of these steps fails only where something is too long,
and the new file holds the metered module and nothing else (`Binary.meter_faithful`). So the
metering function is found in it, and it is not metered again under the same names
(`Binary.meter_again`).
-/

namespace WasmGas

/-- No call of the metering function is refused as text, whatever it is to charge. -/
theorem Meter.charge_ne_assembly (meter : Meter) (cost : Gas) (cause : AssembleError) :
    meter.charge cost ≠ .error (.assembly cause) := by
  rw [charge]
  by_cases holds : meter.register.holds cost = true
  · obtain ⟨_, _, called⟩ := call_eq_ok holds
    rw [if_pos holds, called]
    exact nofun
  · rw [if_neg holds]
    exact nofun

/-- The charges that are assembled are always correct. -/
theorem Module.meter_ne_assembly (m : Module) (tariff : Tariff) (options : MeteringOptions)
    (cause : AssembleError) : m.meter tariff options ≠ .error (.assembly cause) := by
  intro failed
  rcases meter_eq_error failed with ⟨_, conflict⟩ | ⟨_, ofFunctions | ofCode⟩
  · cases conflict
  · exact ofFunctions
  · exact ofCode

namespace Binary

variable {binary content : Bytes} {tariff : Tariff} {options : MeteringOptions} {total : Gas}

/-- A file is decoded as its module is. -/
theorem decode_eq_ok {m : Module} : decode binary = .ok m ↔ Module.decode binary = .ok m :=
  Except.mapError_eq_ok

/-- A file is metered by decoding, metering and encoding it. -/
theorem meter_eq_ok : meter binary tariff options = .ok (content, total) ↔
    ∃ m metered, Module.decode binary = .ok m ∧ m.meter tariff options = .ok (metered, total) ∧
      metered.encode = .ok content := by
  constructor
  · intro done
    obtain ⟨m, found, rest⟩ := Except.bind_eq_ok.mp done
    obtain ⟨⟨metered, gas⟩, charged, rest⟩ := Except.bind_eq_ok.mp rest
    obtain ⟨bytes, written, put⟩ := Except.bind_eq_ok.mp rest
    cases put
    exact ⟨m, metered, decode_eq_ok.mp found, Except.mapError_eq_ok.mp charged,
      Except.mapError_eq_ok.mp written⟩
  · intro ⟨m, metered, found, charged, written⟩
    refine Except.bind_eq_ok.mpr ⟨m, decode_eq_ok.mpr found, ?_⟩
    refine Except.bind_eq_ok.mpr ⟨(metered, total), Except.mapError_eq_ok.mpr charged, ?_⟩
    exact Except.bind_eq_ok.mpr ⟨content, Except.mapError_eq_ok.mpr written, rfl⟩

/-- Once a module is decoded and metered, only its encoding can fail. -/
theorem meter_iff {m metered : Module} {gas : Gas} (decoded : Module.decode binary = .ok m)
    (done : m.meter tariff options = .ok (metered, gas)) :
    meter binary tariff options = .ok (content, total) ↔
      metered.encode = .ok content ∧ total = gas := by
  rw [meter_eq_ok]
  constructor
  · intro ⟨_, _, found, charged, written⟩
    cases decoded.symm.trans found
    cases done.symm.trans charged
    exact ⟨written, rfl⟩
  · intro ⟨written, same⟩
    exact ⟨m, metered, decoded, same ▸ done, written⟩

/-- What is written of a metered module is read back. -/
theorem decode_of_meter {m metered : Module} {gas : Gas} (decoded : Module.decode binary = .ok m)
    (done : m.meter tariff options = .ok (metered, gas)) (written : metered.encode = .ok content) :
    Module.decode content = .ok metered :=
  Module.decode_of_encode ((Module.wellFormed_of_decode decoded).meter done).asRead written

/-- **What metering yields is faithful.** If the module of a file can be metered, then the result
can be written unless something in it is too long, and it is read back from the new file as it is.
The text of a metering call always assembles, and so no module is refused for it. -/
theorem meter_faithful (tariff : Tariff) (options : MeteringOptions) :
    (∀ (binary : Bytes) (m metered : Module) (gas : Gas), Module.decode binary = .ok m →
      m.meter tariff options = .ok (metered, gas) →
        Except.FailsWith EncodeError.OfLength metered.encode ∧
        (∀ content total, meter binary tariff options = .ok (content, total) ↔
          metered.encode = .ok content ∧ total = gas) ∧
        (∀ content total, meter binary tariff options = .ok (content, total) →
          Module.decode content = .ok metered)) ∧
    (∀ (m : Module) (cause : AssembleError), m.meter tariff options ≠ .error (.assembly cause)) ∧
    (∀ (register : Register) (function : UInt32) (cost : Gas) (cause : AssembleError),
      (Meter.mk tariff register function).callCost ≠ .error (.assembly cause) ∧
        (Meter.mk tariff register function).charge cost ≠ .error (.assembly cause)) := by
  refine ⟨?_, fun m => m.meter_ne_assembly tariff options, ?_⟩
  · intro binary m metered gas decoded done
    refine ⟨((Module.wellFormed_of_decode decoded).meter done).encode_failsWith, ?_, ?_⟩
    · exact fun _ _ => meter_iff decoded done
    · exact fun _ _ new => decode_of_meter decoded done ((meter_iff decoded done).mp new).1
  · intro register function cost cause
    refine ⟨?_, Meter.charge_ne_assembly _ cost cause⟩
    rw [Meter.callCost_eq_ok]
    exact nofun

/-- The file of `Module.looping`. -/
def loopingFile : Bytes :=
  [0, 97, 115, 109, 1, 0, 0, 0, 1, 5, 1, 96, 1, 127, 0, 2, 9, 1, 3, 101, 110, 118, 1, 102, 0, 0, 3,
    2, 1, 0, 10, 15, 1, 13, 1, 1, 126, 3, 64, 32, 0, 16, 1, 13, 0, 11, 11]

/-- The file of what becomes of `Module.looping`. -/
def loopingMeteredFile : Bytes :=
  [0, 97, 115, 109, 1, 0, 0, 0, 1, 9, 2, 96, 1, 127, 0, 96, 1, 126, 0, 2, 27, 2, 3, 101, 110, 118,
    1, 102, 0, 0, 8, 109, 101, 116, 101, 114, 105, 110, 103, 6, 117, 115, 101, 103, 97, 115, 0, 1,
    3, 2, 1, 0, 10, 31, 1, 29, 1, 1, 126, 66, 8, 16, 1, 3, 64, 66, 5, 16, 1, 32, 0, 16, 2, 13, 0,
    66, 3, 16, 1, 11, 66, 3, 16, 1, 11]

/-- A module with a loop, an import and calls. -/
theorem meter_faithful_looping :
    Module.decode loopingFile = .ok Module.looping ∧
      Module.looping.meter Module.unitTariff {} = .ok (Module.loopingMetered, .cap 19) ∧
      meter loopingFile Module.unitTariff {} = .ok (loopingMeteredFile, .cap 19) ∧
      Module.decode loopingMeteredFile = .ok Module.loopingMetered := by
  have decoded : Module.decode loopingFile = .ok Module.looping := by decide +kernel
  have done : Module.looping.meter Module.unitTariff {} =
      .ok (Module.loopingMetered, .cap 19) := by decide +kernel
  have written : Module.loopingMetered.encode = .ok loopingMeteredFile := by decide +kernel
  obtain ⟨_, files, readBack⟩ :=
    (meter_faithful Module.unitTariff {}).1 loopingFile Module.looping _ _ decoded done
  have new := (files loopingMeteredFile (.cap 19)).mpr ⟨written, rfl⟩
  exact ⟨decoded, done, new, readBack _ _ new⟩

/-- A module that has the metering function already is refused. -/
theorem meter_of_conflict {m : Module} {module field : String}
    (decoded : Module.decode binary = .ok m)
    (refused : m.meter tariff options = .error (.conflictingImport module field)) :
    meter binary tariff options = .error (.meter (.conflictingImport module field)) := by
  rw [meter, decode, decoded]
  change ((m.meter tariff options).mapError BinaryError.meter >>= _) = _
  rw [refused]
  rfl

/-- **What was metered is not metered again.** The import of the metering function is written to the
new file, read back from there and found in the section that it was put in. So a second metering
under the same names is refused, whatever is charged and for what register. -/
theorem meter_again (done : meter binary tariff options = .ok (content, total)) (other : Tariff)
    {again : MeteringOptions} (sameModule : again.module = options.module)
    (sameField : again.field = options.field) :
    meter content other again =
      .error (.meter (.conflictingImport options.module options.field)) := by
  obtain ⟨m, metered, decoded, charged, written⟩ := meter_eq_ok.mp done
  exact meter_of_conflict (decode_of_meter decoded charged written)
    (Module.meter_of_meter charged other sameModule sameField)

/-- Another register and other prices make no difference. -/
theorem meter_again_looping :
    meter loopingFile Module.unitTariff {} = .ok (loopingMeteredFile, .cap 19) ∧
      meter loopingMeteredFile [] { register := .f32 } =
        .error (.meter (.conflictingImport "metering" "usegas")) := by
  have done : meter loopingFile Module.unitTariff {} = .ok (loopingMeteredFile, .cap 19) := by
    decide +kernel
  exact ⟨done, meter_again done [] rfl rfl⟩

end Binary

end WasmGas

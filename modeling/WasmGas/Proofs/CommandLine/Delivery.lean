import WasmGas.CommandLine.Run
import WasmGas.Proofs.Binary
import WasmGas.Proofs.CommandLine.Files
import WasmGas.Proofs.CommandLine.Settings

/-! # What a command to meter delivers

A command that meters a file reads all that it needs before it writes anything, and it writes once.
It delivers the metered file, to the place that was named and nowhere else, or it fails and leaves
everything as it was; and it fails only if something cannot be read, metered or delivered. Nothing
depends on whether one path leads to the same file as another: the output may be the input.

What is put out goes through a buffer, however, that is not emptied before the program ends. A
result that stays in it, because it is short and has no line break, is lost if the output is at
fault, and the command has succeeded all the same (`Command.Delivery`, `Command.meter_delivery`,
`Command.meter_unreported`).
-/

namespace WasmGas

/-! ## What stays in the buffer -/

namespace LineBuffer

variable {bytes : Bytes}

/-- What is kept is the end of what is put out. -/
theorem kept_suffix (bytes : Bytes) : kept bytes <:+ bytes := by
  unfold kept
  split
  · unfold unfinished
    rw [← List.reverse_prefix, List.reverse_reverse]
    exact List.takeWhile_prefix _
  · exact List.nil_suffix

/-- Nothing is left out and nothing is passed on twice. -/
theorem passed_append_kept (bytes : Bytes) : passed bytes ++ kept bytes = bytes :=
  List.suffix_iff_eq_append.mp (kept_suffix bytes)

/-- Without a line break there is nothing but an unfinished line. -/
theorem unfinished_eq_self_iff : unfinished bytes = bytes ↔ lineBreak ∉ bytes := by
  unfold unfinished
  rw [List.reverse_eq_iff, List.takeWhile_eq_self_iff]
  constructor
  · intro none listed
    exact bne_iff_ne.mp (none lineBreak (List.mem_reverse.mpr listed)) rfl
  · intro absent byte listed
    refine bne_iff_ne.mpr ?_
    rintro rfl
    exact absent (List.mem_reverse.mp listed)

/-- Nothing is passed on of what is short and has no line break. -/
theorem passed_eq_nil_iff : passed bytes = [] ↔ bytes.length < 1024 ∧ 0x0a ∉ bytes := by
  have whole : passed bytes = [] ↔ kept bytes = bytes := by
    constructor
    · intro nothing
      have parts := passed_append_kept bytes
      rwa [nothing, List.nil_append] at parts
    · intro all
      unfold passed
      rw [all, Nat.sub_self, List.take_zero]
  rw [whole]
  unfold kept
  split
  · rename_i fits
    rw [unfinished_eq_self_iff]
    constructor
    · intro absent
      rw [unfinished_eq_self_iff.mpr absent] at fits
      exact ⟨fits, absent⟩
    · exact fun short => short.2
  · rename_i full
    constructor
    · rintro rfl
      exact absurd (by decide) full
    · rintro ⟨short, absent⟩
      rw [unfinished_eq_self_iff.mpr absent] at full
      exact absurd short full

end LineBuffer

/-! ## What is asked for -/

namespace FileSystem

variable (system : FileSystem)

/-- The tariff that counts: the standard one, or that of the file that was named. -/
inductive HasTariff : Option String → Tariff → Prop
  | standard : HasTariff none .standard
  | ofFile {path text : String} {content : Bytes} {tariff : Tariff} :
      system.read path = .ok content → String.fromUTF8? content.toByteArray = some text →
        Tariff.ofJson? text = some tariff → HasTariff (some path) tariff

/-- What becomes of the input by the tariff that counts, and what its metering calls charge. -/
def Yields (input : String) (named : Option String) (options : MeteringOptions) (content : Bytes)
    (total : Gas) : Prop :=
  ∃ binary tariff, system.read input = .ok binary ∧ system.HasTariff named tariff ∧
    Binary.meter binary tariff options = .ok (content, total)

/-- Whether a file, or the standard output where none was named, takes what is written to it. -/
def Takes : Option String → Prop
  | none => system.outputFault? = none
  | some path => system.writeFault? path = none

/-- Whether something that is put out stays in the buffer of an output that is at fault. -/
def Loses (content : Bytes) (output : Option String) : Prop :=
  output = none ∧ system.outputFault? ≠ none ∧ content.length < 1024 ∧ 0x0a ∉ content

end FileSystem

/-- A run that put out some bytes, or that wrote them to a file and put out nothing. -/
inductive Outcome.Delivers (content : Bytes) : Option String → Outcome → Prop
  | putOut (messages : String) : Delivers content none ⟨0, content, messages, none⟩
  | wrote (path messages : String) :
      Delivers content (some path) ⟨0, [], messages, some (path, content)⟩

/-- A run that ended with some exit code, put out nothing and wrote no file. -/
def Outcome.Nothing (exit : UInt32) (outcome : Outcome) : Prop :=
  ∃ messages, outcome = ⟨exit, [], messages, none⟩

/-- A step that fails delivers nothing. -/
theorem Outcome.failed_nothing (messages : String) (failure : Failure) :
    (failed messages failure).Nothing 1 :=
  ⟨_, rfl⟩

namespace Command

variable {system : FileSystem} {verbose : Bool} {input : String} {output named : Option String}
  {options : MeteringOptions}

/-- A run delivers what was asked for. Or that is lost, and the run succeeds. Or the run fails,
because what was asked for does not exist or is known not to be delivered. -/
inductive Delivery (system : FileSystem) (input : String) (output named : Option String)
    (options : MeteringOptions) (outcome : Outcome) : Prop
  | all {content : Bytes} {total : Gas} :
      system.Yields input named options content total → system.Takes output →
        outcome.Delivers content output → Delivery system input output named options outcome
  | lost {content : Bytes} {total : Gas} :
      system.Yields input named options content total → system.Loses content output →
        outcome.Nothing 0 → Delivery system input output named options outcome
  | nothing :
      (∀ content total, system.Yields input named options content total →
        ¬ system.Takes output ∧ ¬ system.Loses content output) →
          outcome.Nothing 1 → Delivery system input output named options outcome

/-! ## What a run does -/

/-- The input is read if it is there. -/
theorem readInput_eq_ok {binary : Bytes} :
    readInput system input = .ok binary ↔ system.read input = .ok binary :=
  Except.mapError_eq_ok

/-- The tariff is the one that counts. -/
theorem readTariff_eq_ok {tariff : Tariff} :
    readTariff system named = .ok tariff ↔ system.HasTariff named tariff := by
  constructor
  · intro found
    cases named with
    | none =>
        cases found
        exact .standard
    | some path =>
        obtain ⟨content, read, found⟩ := Except.bind_eq_ok.mp found
        cases decoded : String.fromUTF8? content.toByteArray with
        | none =>
            simp only [decoded] at found
            cases found
        | some text =>
            simp only [decoded] at found
            cases parsed : Tariff.ofJson? text with
            | none =>
                simp only [parsed] at found
                cases found
            | some known =>
                simp only [parsed] at found
                cases found
                exact .ofFile (Except.mapError_eq_ok.mp read) decoded parsed
  · intro found
    cases found with
    | standard => rfl
    | ofFile read decoded parsed =>
        refine Except.bind_eq_ok.mpr ⟨_, Except.mapError_eq_ok.mpr read, ?_⟩
        simp only [decoded, parsed]
        rfl

/-- What a run can deliver is settled by what it reads. -/
theorem yields_unique {content other : Bytes} {total otherTotal : Gas}
    (yields : system.Yields input named options content total)
    (yieldsOther : system.Yields input named options other otherTotal) :
    other = content ∧ otherTotal = total := by
  obtain ⟨binary, tariff, read, priced, metered⟩ := yields
  obtain ⟨_, _, sameRead, samePriced, meteredOther⟩ := yieldsOther
  cases read.symm.trans sameRead
  cases (readTariff_eq_ok.mpr priced).symm.trans (readTariff_eq_ok.mpr samePriced)
  cases metered.symm.trans meteredOther
  exact ⟨rfl, rfl⟩

/-- Where everything can be read and metered, what is left is to put the result out. -/
theorem runMeter_output (verbose : Bool) {content : Bytes} {total : Gas}
    (yields : system.Yields input named options content total) :
    ∃ told messages, runMeter system verbose input none named options =
      match system.reportedFault? content with
      | some fault => .failed told ⟨"failed to write to stdout", [fault.message]⟩
      | none => ⟨0, system.received content, messages, none⟩ := by
  obtain ⟨binary, tariff, read, priced, metered⟩ := yields
  unfold runMeter
  simp only [readInput_eq_ok.mpr read, readTariff_eq_ok.mpr priced, metered]
  exact ⟨_, _, rfl⟩

/-- Where everything can be read and metered, what is left is to write the result to its file. -/
theorem runMeter_file (verbose : Bool) (path : String) {content : Bytes} {total : Gas}
    (yields : system.Yields input named options content total) :
    ∃ told messages, runMeter system verbose input (some path) named options =
      match system.writeFault? path with
      | some fault => .failed told ⟨"failed to write " ++ path, [fault.message]⟩
      | none => ⟨0, [], messages, some (path, content)⟩ := by
  obtain ⟨binary, tariff, read, priced, metered⟩ := yields
  unfold runMeter
  simp only [readInput_eq_ok.mpr read, readTariff_eq_ok.mpr priced, metered]
  exact ⟨_, _, rfl⟩

/-- What is refused by the place where it should go is not delivered. -/
theorem delivery_of_refused {content : Bytes} {total : Gas}
    (yields : system.Yields input named options content total) (refused : ¬ system.Takes output)
    (noticed : ¬ system.Loses content output) (told : String) (failure : Failure) :
    Delivery system input output named options (.failed told failure) := by
  refine .nothing (fun other otherTotal yieldsOther => ⟨refused, ?_⟩)
    (Outcome.failed_nothing told failure)
  obtain ⟨rfl, -⟩ := yields_unique yields yieldsOther
  exact noticed

/-- What can be metered is put out, lost, or refused. -/
theorem delivery_of_output {content : Bytes} {total : Gas}
    (yields : system.Yields input named options content total) :
    Delivery system input none named options
      (runMeter system verbose input none named options) := by
  obtain ⟨told, messages, run⟩ := runMeter_output verbose yields
  rw [run]
  unfold FileSystem.reportedFault? FileSystem.received
  cases fault : system.outputFault? with
  | none =>
      rw [ite_self]
      exact .all yields fault (.putOut messages)
  | some refusal =>
      have failing : ¬ system.Takes none := by
        intro takes
        cases fault.symm.trans takes
      by_cases stays : LineBuffer.passed content = []
      · rw [if_pos stays]
        exact .lost yields ⟨rfl, failing, LineBuffer.passed_eq_nil_iff.mp stays⟩ ⟨messages, rfl⟩
      · rw [if_neg stays]
        exact delivery_of_refused yields failing
          (fun loses => stays (LineBuffer.passed_eq_nil_iff.mpr loses.2.2)) told _

/-- What can be metered is written to its file, or refused. -/
theorem delivery_of_file {content : Bytes} {total : Gas} {path : String}
    (yields : system.Yields input named options content total) :
    Delivery system input (some path) named options
      (runMeter system verbose input (some path) named options) := by
  obtain ⟨told, messages, run⟩ := runMeter_file verbose path yields
  rw [run]
  cases fault : system.writeFault? path with
  | none => exact .all yields fault (.wrote path messages)
  | some refusal =>
      have failing : ¬ system.Takes (some path) := by
        intro takes
        cases fault.symm.trans takes
      exact delivery_of_refused yields failing (fun loses => nomatch loses.1) told _

/-- A run that has nothing to deliver fails. -/
theorem runMeter_nothing
    (cannot : ¬ ∃ content total, system.Yields input named options content total) :
    (runMeter system verbose input output named options).Nothing 1 := by
  unfold runMeter
  cases read : readInput system input with
  | error failure => exact Outcome.failed_nothing _ failure
  | ok binary =>
      cases priced : readTariff system named with
      | error failure => exact Outcome.failed_nothing _ failure
      | ok tariff =>
          cases metered : Binary.meter binary tariff options with
          | error fault =>
              simp only [metered]
              exact Outcome.failed_nothing _ _
          | ok result =>
              exact absurd ⟨_, _, binary, tariff, readInput_eq_ok.mp read,
                readTariff_eq_ok.mp priced, metered⟩ cannot

/-- A run delivers what was asked for, or loses it, or fails. -/
theorem runMeter_delivery :
    Delivery system input output named options
      (runMeter system verbose input output named options) := by
  by_cases can : ∃ content total, system.Yields input named options content total
  · obtain ⟨content, total, yields⟩ := can
    cases output with
    | none => exact delivery_of_output yields
    | some path => exact delivery_of_file yields
  · exact .nothing (fun content total yields => absurd ⟨content, total, yields⟩ can)
      (runMeter_nothing can)

end Command

/-! ## What is left behind -/

namespace Files

/-- What comes of the files, and of the run itself, by what the run wrote. A file takes it and all
others stay as they were; of a file outside of the working directory nothing is known afterwards.
What was written to the standard output as a file has been put out. -/
inductive Leaves (files : Files) (outcome : Outcome) : Outcome × Files → Prop
  | unchanged : outcome.written = none → Leaves files outcome (outcome, files)
  | written {path : String} {content : Bytes} {parts : List String} {after : Files} :
      outcome.written = some (path, content) → files.target path = .ok parts →
        parts ≠ outputDevice → (isOutside parts = true → after = files) →
          (isOutside parts = false → after.read path = .ok content) →
            (∀ other, other ≠ parts → after.lookup other = files.lookup other) →
              Leaves files outcome (outcome, after)
  | putOut {path : String} {content : Bytes} :
      outcome.written = some (path, content) → files.target path = .ok outputDevice →
        Leaves files outcome ({ outcome with output := outcome.output ++ content }, files)

variable (files : Files) {outcome : Outcome}

/-- What can be written to leads somewhere. -/
theorem target_of_writeFault? {outputFault? : Option FileError} {path : String}
    (takes : (files.system outputFault?).writeFault? path = none) :
    ∃ parts, files.target path = .ok parts := by
  cases found : files.target path with
  | ok parts => exact ⟨parts, rfl⟩
  | error fault =>
      simp only [system, found] at takes
      cases takes

/-- What is written is the file that was named, for nothing else is written. -/
theorem leaves_carryOut
    (leads : ∀ path content, outcome.written = some (path, content) →
      ∃ parts, files.target path = .ok parts) :
    files.Leaves outcome (files.carryOut outcome) := by
  obtain ⟨exit, output, messages, written⟩ := outcome
  unfold carryOut
  cases written with
  | none => exact .unchanged rfl
  | some file =>
      obtain ⟨path, content⟩ := file
      obtain ⟨parts, found⟩ := leads path content rfl
      simp only [found]
      by_cases device : parts = outputDevice
      · subst device
        rw [if_pos rfl]
        exact .putOut rfl found
      · rw [if_neg device]
        refine .written rfl found device (fun outside => ?_) (read_write found)
          fun _ => lookup_write_of_ne
        rw [write, if_pos outside]

end Files

namespace Command

variable {system : FileSystem} {verbose : Bool} {input : String} {output named : Option String}
  {options : MeteringOptions}

/-- Only what can be written to is written. -/
theorem Delivery.takes_of_written {outcome : Outcome}
    (result : Delivery system input output named options outcome) {path : String}
    {content : Bytes} (written : outcome.written = some (path, content)) :
    system.writeFault? path = none := by
  cases result with
  | all _ takes delivers =>
      cases delivers with
      | putOut _ => cases written
      | wrote _ _ =>
          cases written
          exact takes
  | lost _ _ vanished =>
      obtain ⟨messages, rfl⟩ := vanished
      cases written
  | nothing _ failed =>
      obtain ⟨messages, rfl⟩ := failed
      cases written

/-- **What a command to meter delivers.** Every part of the command is as its arguments say.
Whatever can be read and written, the command delivers exactly what becomes of the input, or it
fails with nothing put out and nothing written, and it fails only where there is nothing to deliver
or where that is known not to arrive. A result that the buffer of the output keeps is lost without
a failure if the output is at fault. Of the files in the working directory none changes but the one
that was named, and that one holds what was delivered. -/
theorem meter_delivery {arguments : List String}
    (asked : Request.ofArguments arguments =
      .perform verbose (.meter input output named options)) :
    Arguments.Asks arguments verbose input output named options ∧
    (∀ system, Delivery system input output named options
      ((Request.ofArguments arguments).run system)) ∧
    ∀ (files : Files) (outputFault? : Option FileError),
      files.Leaves ((Request.ofArguments arguments).run (files.system outputFault?))
        (files.run arguments outputFault?) := by
  have always (system : FileSystem) : Delivery system input output named options
      ((Request.ofArguments arguments).run system) := by
    rw [asked]
    exact runMeter_delivery
  refine ⟨Request.ofArguments_eq_meter_iff.mp asked, always, fun files outputFault? => ?_⟩
  exact files.leaves_carryOut fun path content written =>
    files.target_of_writeFault? ((always _).takes_of_written written)

/-- A module beside the tariff that it is to be metered by. -/
def loopingFiles : Files :=
  [(["looping.wasm"], Binary.loopingFile), (["rates.json"], utf8 Module.unitTariff.toJson)]

/-- A command that puts the metered file in the place of its input, with a metering function of
another name. -/
def meterInPlace : List String :=
  ["meter", "looping.wasm", "-olooping.wasm", "--cost-table", "rates.json", "--module=env",
    "--field", "gas"]

/-- The file that this command makes. -/
def inPlaceFile : Bytes :=
  [0, 97, 115, 109, 1, 0, 0, 0, 1, 9, 2, 96, 1, 127, 0, 96, 1, 126, 0, 2, 19, 2, 3, 101, 110, 118,
    1, 102, 0, 0, 3, 101, 110, 118, 3, 103, 97, 115, 0, 1, 3, 2, 1, 0, 10, 31, 1, 29, 1, 1, 126, 66,
    8, 16, 1, 3, 64, 66, 5, 16, 1, 32, 0, 16, 2, 13, 0, 66, 3, 16, 1, 11, 66, 3, 16, 1, 11]

/-- What the command has to deliver. -/
theorem loopingFiles_yields :
    (loopingFiles.system none).Yields "looping.wasm" (some "rates.json")
      { module := "env", field := "gas" } inPlaceFile (.cap 19) := by
  have read : (loopingFiles.system none).read "rates.json" = .ok (utf8 Module.unitTariff.toJson) :=
    by decide +kernel
  have decoded : String.fromUTF8? (utf8 Module.unitTariff.toJson).toByteArray =
      some Module.unitTariff.toJson := by decide +kernel
  have parsed : Tariff.ofJson? Module.unitTariff.toJson = some Module.unitTariff := rfl
  exact ⟨Binary.loopingFile, Module.unitTariff, by decide +kernel, .ofFile read decoded parsed,
    by decide +kernel⟩

/-- The input is read before anything is written, so it can be written over. -/
theorem meter_delivery_inPlace :
    Request.ofArguments meterInPlace = .perform false
        (.meter "looping.wasm" (some "looping.wasm") (some "rates.json")
          { module := "env", field := "gas" }) ∧
      (loopingFiles.run meterInPlace).1.exit = 0 ∧
      (loopingFiles.run meterInPlace).1.output = [] ∧
      (loopingFiles.run meterInPlace).2.read "looping.wasm" = .ok inPlaceFile := by
  have asked : Request.ofArguments meterInPlace = .perform false
      (.meter "looping.wasm" (some "looping.wasm") (some "rates.json")
        { module := "env", field := "gas" }) := by decide +kernel
  have takes : (loopingFiles.system none).writeFault? "looping.wasm" = none := by decide +kernel
  have inside : loopingFiles.target "looping.wasm" = .ok ["looping.wasm"] := by decide +kernel
  obtain ⟨-, delivery, leaves⟩ := meter_delivery asked
  have result := delivery (loopingFiles.system none)
  have left := leaves loopingFiles none
  generalize (Request.ofArguments meterInPlace).run (loopingFiles.system none) = outcome
    at result left
  generalize loopingFiles.run meterInPlace = run at left ⊢
  cases result with
  | nothing cannot _ => exact absurd takes (cannot _ _ loopingFiles_yields).1
  | lost _ loses _ => cases loses.1
  | all yields _ delivers =>
      obtain ⟨rfl, -⟩ := yields_unique loopingFiles_yields yields
      cases delivers with
      | wrote _ messages =>
          cases left with
          | unchanged none => cases none
          | putOut written found =>
              cases written
              exact absurd (Except.ok.inj (inside.symm.trans found)) (by decide)
          | written written found _ _ holds _ =>
              cases written
              cases inside.symm.trans found
              exact ⟨asked, rfl, rfl, holds rfl⟩

/-- A file of a module with nothing in it. -/
def emptyFiles : Files := [(["empty.wasm"], [0, 97, 115, 109, 1, 0, 0, 0])]

/-- The file of that module once it is metered. -/
def emptyMeteredFile : Bytes :=
  [0, 97, 115, 109, 1, 0, 0, 0, 1, 5, 1, 96, 1, 126, 0, 2, 19, 1, 8, 109, 101, 116, 101, 114, 105,
    110, 103, 6, 117, 115, 101, 103, 97, 115, 0, 0]

/-- **A loss that is not reported.** The metered file is in the buffer when the command ends with
success, and the output does not take it. And a file can be the standard output, which then has got
what was to be in a file. -/
theorem meter_unreported :
    (emptyFiles.system (some .noSpace)).Yields "empty.wasm" none {} emptyMeteredFile 0 ∧
      (emptyFiles.run ["meter", "empty.wasm"] (some .noSpace)).1.exit = 0 ∧
      (emptyFiles.run ["meter", "empty.wasm"] (some .noSpace)).1.output = [] ∧
      (emptyFiles.run ["meter", "empty.wasm"] (some .noSpace)).2 = emptyFiles ∧
      (emptyFiles.run ["meter", "empty.wasm", "-o", "/dev/stdout"]).1.exit = 0 ∧
      (emptyFiles.run ["meter", "empty.wasm", "-o", "/dev/stdout"]).1.output =
        emptyMeteredFile := by
  refine ⟨⟨_, _, rfl, .standard, ?_⟩, ?_⟩
  · decide +kernel
  · decide +kernel

end Command

end WasmGas

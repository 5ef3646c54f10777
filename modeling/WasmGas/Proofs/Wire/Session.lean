import WasmGas.Proofs.Wire.Forward
import WasmGas.Wire.Session

/-! # What a session of reads keeps

Windows are opened one inside the other, and any of them may be read at any time, successfully or
not. Of the windows alone one cannot tell where they were meant to lie, so a session
(`Windows.Session`) notes with every window that is opened the part of the file that it is opened on
(`Extent`). Whatever the steps before, every window is still on its extent, and every extent inside
that of the window around it (`Window.Nested`); and the next step moves the one window that it is
about, forward only, as far as the bytes that it takes (`Windows.Session.Moves`).
-/

namespace WasmGas

open Reader

/-- What is read of a file, from one cursor up to another. -/
theorem Cursor.LiesIn.eq_extract {cursor after : Cursor} {file used : Bytes}
    (lies : cursor.LiesIn file) (advances : cursor.Advances used after) :
    used = file.extract cursor.offset after.offset := by
  rw [List.extract_eq_take_drop, advances.offset, Nat.add_sub_cancel_left]
  exact List.prefix_iff_eq_take.mp (lies.front advances)

/-! ## Single reads -/

/-- The bytes that a raw read finds. -/
def Datum.bytes? : Datum → Option Bytes
  | byte value => some [value]
  | bytes value => some value
  | _ => none

namespace Read

def script : (read : Read) → Script read.reader
  | byte => .bind .byte fun _ => .pure _
  | take count => .bind (.take count) fun _ => .pure _
  | rest => .bind .rest fun _ => .pure _
  | uint32 => .bind .uint32 fun _ => .pure _
  | int32 => .bind .int32 fun _ => .pure _
  | int64 => .bind .int64 fun _ => .pure _
  | blob => .bind .blob fun _ => .pure _
  | name => .bind .name fun _ => .pure _

/-- How many bytes a raw read asks for; the other reads learn it from the bytes. -/
def wanted? (read : Read) (cursor : Cursor) : Option Nat :=
  match read with
  | byte => some 1
  | take count => some count
  | rest => some cursor.remaining
  | _ => none

/-- What a read on a window of a file answers, and the window after it. -/
structure Answers (read : Read) (file : Bytes) (window : Window)
    (found : Except DecodeError Datum) (after : Window) : Prop where
  start : after.start = window.start
  /-- Also a read that fails goes only forward, and no further than the window. -/
  advances : window.cursor.Advances (file.extract window.cursor.offset after.cursor.offset)
    after.cursor
  /-- A raw read succeeds if there are enough bytes, and finds all that it goes over. -/
  enough : ∀ count, read.wanted? window.cursor = some count → count ≤ window.cursor.remaining →
    after.cursor.offset = window.cursor.offset + count ∧ ∃ datum, found = .ok datum ∧
      datum.bytes? = some (file.extract window.cursor.offset after.cursor.offset)
  /-- Otherwise it moves nothing and tells how many bytes are missing. -/
  short : ∀ count, read.wanted? window.cursor = some count → window.cursor.remaining < count →
    after = window ∧
      found = .error (.truncated window.cursor.offset (count - window.cursor.remaining))

variable {read : Read} {cursor : Cursor} {count : Nat}

theorem reader_of_le (wanted : read.wanted? cursor = some count)
    (enough : count ≤ cursor.remaining) : ∃ datum,
      read.reader cursor = .ok datum (cursor.advance count) ∧
        datum.bytes? = some (cursor.rest.take count) := by
  cases read with
  | byte =>
      cases wanted
      obtain ⟨start, bytes⟩ := cursor
      cases bytes with
      | nil => exact absurd enough (Nat.not_succ_le_zero 0)
      | cons head tail => exact ⟨.byte head, rfl, rfl⟩
  | take count =>
      cases wanted
      exact ⟨_, bind_of_ok (Script.take_eq_ok.mpr ⟨enough, rfl, rfl⟩), rfl⟩
  | rest =>
      cases wanted
      refine ⟨.bytes cursor.rest, rfl, ?_⟩
      rw [Cursor.remaining, List.take_length]
      rfl
  | _ => cases wanted

theorem reader_of_lt (wanted : read.wanted? cursor = some count)
    (short : cursor.remaining < count) : read.reader cursor =
      .error (.truncated cursor.offset (count - cursor.remaining)) cursor := by
  cases read with
  | byte =>
      cases wanted
      obtain ⟨start, bytes⟩ := cursor
      cases bytes with
      | nil => rfl
      | cons head tail => exact absurd short (Nat.not_lt.mpr (Nat.succ_le_succ (Nat.zero_le _)))
  | take count =>
      cases wanted
      exact bind_of_error (if_pos short)
  | rest =>
      cases wanted
      exact absurd short (lt_irrefl _)
  | _ => cases wanted

/-- A read is answered by the bytes of the window it is made in. -/
theorem answers (read : Read) {file : Bytes} {window : Window} (lies : window.cursor.LiesIn file) :
    read.Answers file window (read.reader.value window.cursor)
      { window with cursor := read.reader.left window.cursor } where
  start := rfl
  advances := by
    obtain ⟨used, advances⟩ := read.script.forward window.cursor
    rwa [lies.eq_extract advances] at advances
  enough := by
    intro count wanted enough
    obtain ⟨datum, done, bytes⟩ := reader_of_le wanted enough
    rw [lies.eq_extract (Script.advances_take enough)] at bytes
    rw [left_of_ok done, value, done]
    exact ⟨rfl, datum, rfl, bytes⟩
  short := by
    intro count wanted short
    have failed := reader_of_lt wanted short
    rw [left_of_error failed, value, failed]
    exact ⟨rfl, rfl⟩

end Read

/-! ## Windows on extents -/

/-- A part of a file. -/
structure Extent where
  start : Nat
  length : Nat
  deriving DecidableEq, Repr

namespace Extent

def stop (extent : Extent) : Nat := extent.start + extent.length

/-- One part lies inside another one. -/
structure Inside (inner outer : Extent) : Prop where
  start_le : outer.start ≤ inner.start
  stop_le : inner.stop ≤ outer.stop

/-- The window that is opened on a part of a file. -/
def window (extent : Extent) (file : Bytes) : Window :=
  ⟨extent.start, ⟨extent.start, file.extract extent.start extent.stop⟩⟩

end Extent

namespace Window

/-- A window holds the bytes of its part of a file from where it has been read up to. -/
structure On (window : Window) (file : Bytes) (extent : Extent) : Prop where
  start : window.start = extent.start
  offset : window.cursor.offset = window.start + window.consumed
  length : window.consumed + window.cursor.remaining = extent.length
  lies : window.cursor.LiesIn file

/-- A window that went forward is still one on its extent. -/
theorem On.advance {window after : Window} {file used : Bytes} {extent : Extent}
    (on : window.On file extent) (start : after.start = window.start)
    (advances : window.cursor.Advances used after.cursor) : after.On file extent := by
  obtain ⟨same, offset, length, lies⟩ := on
  have split := congrArg List.length advances.rest
  have moved := advances.offset
  rw [List.length_append] at split
  simp only [consumed, Cursor.remaining] at offset length
  refine ⟨start.trans same, ?_, ?_, lies.advance advances⟩
  · rw [consumed]
    omega
  · rw [consumed, Cursor.remaining]
    omega

/-- A window ends where its extent does. -/
theorem On.stop_eq {window : Window} {file : Bytes} {extent : Extent}
    (on : window.On file extent) : window.cursor.stop = extent.stop := by
  rw [Cursor.stop, Extent.stop, ← on.length, ← on.start, on.offset, Nat.add_assoc]

/-- A window that is opened on a part of a file is on it. -/
theorem On.window {extent : Extent} {file : Bytes} (inside : extent.stop ≤ file.length) :
    (extent.window file).On file extent := by
  obtain ⟨start, length⟩ := extent
  change start + length ≤ file.length at inside
  have consumed : (Extent.window ⟨start, length⟩ file).consumed = 0 := Nat.sub_self start
  refine ⟨rfl, ?_, ?_, (Nat.le_add_right _ _).trans inside, ?_⟩
  · rw [consumed]
    rfl
  · rw [consumed, Nat.zero_add]
    change (file.extract start (start + length)).length = length
    rw [List.extract_eq_take_drop, Nat.add_sub_cancel_left, List.length_take, List.length_drop]
    omega
  · rw [Extent.window, List.extract_eq_take_drop]
    exact List.take_prefix _ _

/-- Windows on their extents, the innermost first, up to the one on the whole file. -/
inductive Nested (file : Bytes) : List Window → List Extent → Prop where
  | whole {window : Window} (on : window.On file ⟨0, file.length⟩) :
      Nested file [window] [⟨0, file.length⟩]
  | inner {window : Window} {outer : List Window} {extent around : Extent} {extents : List Extent}
      (on : window.On file extent) (inside : extent.Inside around)
      (others : Nested file outer (around :: extents)) :
      Nested file (window :: outer) (extent :: around :: extents)

namespace Nested

variable {file : Bytes} {windows : List Window} {extents : List Extent} {depth : Nat}

/-- Any of the windows is on some extent, and another one on the same may take its place. -/
theorem exists_on {window : Window} (nested : Nested file windows extents)
    (there : windows[depth]? = some window) : ∃ extent, window.On file extent ∧
      ∀ after : Window, after.On file extent → Nested file (windows.set depth after) extents := by
  induction nested generalizing depth with
  | whole on =>
      cases depth with
      | zero =>
          cases there
          exact ⟨_, on, fun after kept => .whole kept⟩
      | succ depth => cases there
  | inner on inside others deeper =>
      cases depth with
      | zero =>
          cases there
          exact ⟨_, on, fun after kept => .inner kept inside others⟩
      | succ depth =>
          obtain ⟨extent, own, put⟩ := deeper there
          exact ⟨extent, own, fun after kept => .inner on inside (put after kept)⟩

/-- Windows stay on their extents where one of them is read further. -/
theorem set {window after : Window} {used : Bytes} (nested : Nested file windows extents)
    (there : windows[depth]? = some window) (start : after.start = window.start)
    (advances : window.cursor.Advances used after.cursor) :
    Nested file (windows.set depth after) extents := by
  obtain ⟨extent, on, put⟩ := nested.exists_on there
  exact put after (on.advance start advances)

theorem ofBytes (file : Bytes) : Nested file [.ofBytes file] [⟨0, file.length⟩] :=
  .whole ⟨rfl, rfl, Nat.zero_add _, Nat.zero_le _, List.prefix_rfl⟩

theorem tail {window around : Window} {outer : List Window}
    (nested : Nested file (window :: around :: outer) extents) :
    Nested file (around :: outer) extents.tail := by
  cases nested with
  | inner _ _ others => exact others

/-- The next bytes of the innermost window make up a window inside it. -/
theorem enter {window : Window} {outer : List Window} {size : Nat}
    (nested : Nested file (window :: outer) extents) (enough : size ≤ window.cursor.remaining) :
    Nested file
      (Extent.window ⟨window.cursor.offset, size⟩ file ::
        { window with cursor := window.cursor.advance size } :: outer)
      (⟨window.cursor.offset, size⟩ :: extents) := by
  obtain ⟨extent, others, rfl, on⟩ : ∃ extent others, extents = extent :: others ∧
      window.On file extent := by
    cases nested with
    | whole on => exact ⟨_, _, rfl, on⟩
    | inner on _ _ => exact ⟨_, _, rfl, on⟩
  have skips := Script.advances_take enough
  have there : (window :: outer)[0]? = some window := rfl
  refine .inner (On.window (on.lies.advance skips).inside) ⟨?_, ?_⟩ (nested.set there rfl skips)
  · rw [← on.start, on.offset]
    exact Nat.le_add_right _ _
  · rw [← on.stop_eq]
    exact Nat.add_le_add_left enough _

end Nested

end Window

/-! ## Sessions -/

namespace Windows

/-- All the windows, the innermost first. -/
def all (windows : Windows) : List Window := windows.innermost :: windows.outer

/-- Puts another window in the place of one. -/
def put (windows : Windows) (window : Window) : (depth : Nat) → Windows
  | 0 => { windows with innermost := window }
  | depth + 1 => { windows with outer := windows.outer.set depth window }

theorem all_put (windows : Windows) (window : Window) (depth : Nat) :
    (windows.put window depth).all = windows.all.set depth window := by
  cases depth <;> rfl

theorem runReader_eq {α : Type} (windows : Windows) (reader : Reader α) :
    windows.runReader reader =
      (reader.value windows.innermost.cursor,
        windows.put { windows.innermost with
          cursor := reader.left windows.innermost.cursor } 0) := by
  rw [runReader, value, left]
  cases reader windows.innermost.cursor <;> rfl

/-- Reads from any of the windows, as if it were the only one. -/
def readAt (windows : Windows) (depth : Nat) (read : Read) :
    Except DecodeError (Option Datum) × Windows :=
  match windows.all[depth]? with
  | none => (.ok none, windows)
  | some window =>
    let (found, after) := Windows.run ⟨window, []⟩ (.read read)
    (found, windows.put after.innermost depth)

/-- A read is made in the innermost window. -/
theorem run_read (windows : Windows) (read : Read) : windows.run (.read read) =
    ((read.reader.value windows.innermost.cursor).map some,
      windows.put { windows.innermost with
        cursor := read.reader.left windows.innermost.cursor } 0) := by
  rw [run, runReader_eq, value_map, left_map]

/-- A read at some depth moves the window there and no other. -/
theorem readAt_of_some {windows : Windows} {depth : Nat} {window : Window} (read : Read)
    (there : windows.all[depth]? = some window) : windows.readAt depth read =
      ((read.reader.value window.cursor).map some,
        windows.put { window with cursor := read.reader.left window.cursor } depth) := by
  rw [readAt, there]
  dsimp only
  rw [run_read]
  rfl

/-- A read on the innermost window is the command. -/
theorem readAt_zero (windows : Windows) (read : Read) :
    windows.readAt 0 read = windows.run (.read read) := by
  rw [readAt_of_some read rfl, run_read]

/-- A window is opened on the next bytes, and the one around it goes past them. -/
theorem run_enter_of_le {window : Window} {outer : List Window} {size : Nat}
    (enough : size ≤ window.cursor.remaining) : Windows.run ⟨window, outer⟩ (.enter size) =
      (.ok none, ⟨⟨window.cursor.offset, window.cursor.window size⟩,
        { window with cursor := window.cursor.advance size } :: outer⟩) := by
  rw [run, runReader, slice_of_le enough]
  rfl

/-- No window is opened on bytes that are not there. -/
theorem run_enter_of_lt {windows : Windows} {size : Nat}
    (short : windows.innermost.cursor.remaining < size) : windows.run (.enter size) =
      (.error (.truncated windows.innermost.cursor.offset
        (size - windows.innermost.cursor.remaining)), windows) := by
  rw [run, runReader, slice_of_lt short]

/-- A step of a session: a command, of which a read may be on any of the windows. -/
inductive Step where
  | read (depth : Nat) (read : Read)
  | enter (size : Nat)
  | leave
  deriving DecidableEq, Repr

def Step.ofCommand : WindowCommand → Step
  | .read one => .read 0 one
  | .enter size => .enter size
  | .leave => .leave

/-- Open windows, and where each of them was opened. -/
structure Session where
  windows : Windows
  extents : List Extent
  deriving DecidableEq, Repr

namespace Session

def ofBytes (file : Bytes) : Session := ⟨.ofBytes file, [⟨0, file.length⟩]⟩

/-- Takes a step on the windows and notes what is opened and what is closed. -/
def step (session : Session) : Step → Except DecodeError (Option Datum) × Session
  | .read depth read =>
    let (found, windows) := session.windows.readAt depth read
    (found, { session with windows })
  | .enter size =>
    match session.windows.run (.enter size) with
    | (.ok found, windows) =>
      (.ok found, ⟨windows, ⟨session.windows.innermost.cursor.offset, size⟩ :: session.extents⟩)
    | (.error fault, windows) => (.error fault, { session with windows })
  | .leave =>
    let (found, windows) := session.windows.run .leave
    (found, ⟨windows, session.extents.drop (session.windows.outer.length - windows.outer.length)⟩)

/-- A session does with its windows what the commands do. -/
theorem step_ofCommand (session : Session) (command : WindowCommand) :
    ((session.step (.ofCommand command)).1, (session.step (.ofCommand command)).2.windows) =
      session.windows.run command := by
  cases command with
  | read read => exact readAt_zero session.windows read
  | enter size =>
      rw [Step.ofCommand, step]
      obtain ⟨found, windows⟩ := session.windows.run (.enter size)
      cases found <;> rfl
  | leave => rfl

/-- The session after some steps, whether or not they succeed. -/
def after (session : Session) (steps : List Step) : Session :=
  steps.foldl (fun session step => (session.step step).2) session

/-- Every window is on its extent, and every extent inside the one around it. -/
def Nested (session : Session) (file : Bytes) : Prop :=
  Window.Nested file session.windows.all session.extents

/-- What a step answers, and the session after it. -/
inductive Moves (file : Bytes) (session : Session) :
    Step → Except DecodeError (Option Datum) × Session → Prop where
  /-- One window is read, and the others stay as they are. -/
  | read {depth : Nat} {read : Read} {window after : Window} {found : Except DecodeError Datum}
      (there : session.windows.all[depth]? = some window)
      (answers : read.Answers file window found after) :
      Moves file session (.read depth read)
        (found.map some, { session with windows := session.windows.put after depth })
  | nothing {depth : Nat} {read : Read} (beyond : session.windows.all.length ≤ depth) :
      Moves file session (.read depth read) (.ok none, session)
  /-- A window is opened on the next bytes, and the one around it goes behind them. -/
  | enter {size : Nat} {window : Window} {outer : List Window} {extent : Extent}
      (innermost : session.windows = ⟨window, outer⟩)
      (enough : size ≤ window.cursor.remaining) (next : extent = ⟨window.cursor.offset, size⟩) :
      Moves file session (.enter size) (.ok none,
        ⟨⟨extent.window file, { window with cursor := window.cursor.advance size } :: outer⟩,
          extent :: session.extents⟩)
  | refuse {size : Nat} {cursor : Cursor} (innermost : session.windows.innermost.cursor = cursor)
      (short : cursor.remaining < size) :
      Moves file session (.enter size)
        (.error (.truncated cursor.offset (size - cursor.remaining)), session)
  | leave {window around : Window} {outer : List Window}
      (closes : session.windows = ⟨window, around :: outer⟩) :
      Moves file session .leave (.ok none, ⟨⟨around, outer⟩, session.extents.tail⟩)
  | stay {window : Window} (alone : session.windows = ⟨window, []⟩) :
      Moves file session .leave (.ok none, session)

variable {session : Session} {file : Bytes}

/-- A step moves one window forward, or opens or closes one. -/
theorem step_moves (nested : session.Nested file) (step : Step) :
    session.Moves file step (session.step step) := by
  cases step with
  | read depth read =>
      cases there : session.windows.all[depth]? with
      | none =>
          rw [Session.step, readAt, there]
          exact .nothing (List.getElem?_eq_none_iff.mp there)
      | some window =>
          obtain ⟨extent, on, _⟩ := Window.Nested.exists_on nested there
          rw [Session.step, readAt_of_some read there]
          exact .read there (read.answers on.lies)
  | enter size =>
      obtain ⟨⟨window, outer⟩, extents⟩ := session
      by_cases enough : size ≤ window.cursor.remaining
      · have there : (window :: outer)[0]? = some window := rfl
        obtain ⟨extent, on, _⟩ := Window.Nested.exists_on nested there
        have content := on.lies.eq_extract (Script.advances_take enough)
        rw [Session.step, run_enter_of_le enough, Cursor.window, content]
        exact .enter rfl enough rfl
      · have short := Nat.lt_of_not_le enough
        rw [Session.step, run_enter_of_lt short]
        exact .refuse rfl short
  | leave =>
      obtain ⟨⟨window, outer⟩, extents⟩ := session
      cases outer with
      | nil => exact .stay rfl
      | cons around outer =>
          rw [Session.step, run]
          dsimp only
          rw [List.length_cons, Nat.add_sub_cancel_left, List.drop_one]
          exact .leave rfl

/-- No step takes a window off its extent. -/
theorem Moves.nested {step : Step} {result : Except DecodeError (Option Datum) × Session}
    (moves : session.Moves file step result) (nested : session.Nested file) :
    result.2.Nested file := by
  cases moves with
  | read there answers =>
      change Window.Nested file (session.windows.put _ _).all session.extents
      rw [all_put]
      exact Window.Nested.set nested there answers.start answers.advances
  | nothing => exact nested
  | enter innermost enough next =>
      obtain ⟨windows, extents⟩ := session
      cases innermost
      cases next
      exact Window.Nested.enter nested enough
  | refuse => exact nested
  | leave closes =>
      obtain ⟨windows, extents⟩ := session
      cases closes
      exact Window.Nested.tail nested
  | stay => exact nested

/-- Windows are nested after any number of steps. -/
theorem nested_after (nested : session.Nested file) (steps : List Step) :
    (session.after steps).Nested file := by
  induction steps generalizing session with
  | nil => exact nested
  | cons step steps others => exact others ((step_moves nested step).nested nested)

/-- **Windows over whole sessions.** Whatever was done with a file before, successfully or not,
every window holds the bytes of its extent from where it has been read up to, and the extents lie
one inside the other. The next step goes forward in the one window that it is about; where bytes are
missing for a raw read or a window, it says how many and leaves everything as it is. -/
theorem nested_and_moves (file : Bytes) (steps : List Step) (step : Step) :
    let session := (ofBytes file).after steps
    session.Nested file ∧ session.Moves file step (session.step step) := by
  have whole : (ofBytes file).Nested file := Window.Nested.ofBytes file
  have nested := nested_after whole steps
  exact ⟨nested, step_moves nested step⟩

/-- Around a window a number is cut short, and then the window is asked for too much. -/
example :
    ((ofBytes [0x07, 0x08, 0x80]).after [.enter 2, .read 1 .uint32]).step (.read 0 (.take 5)) =
      (.error (.truncated 0 3),
        ⟨⟨⟨0, 0, [0x07, 0x08]⟩, [⟨0, 3, []⟩]⟩, [⟨0, 2⟩, ⟨0, 3⟩]⟩) := by
  decide +kernel

end Session

end Windows

end WasmGas

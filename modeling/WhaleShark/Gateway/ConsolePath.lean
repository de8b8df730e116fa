import WhaleShark.Gateway.ConsoleRuns
import WhaleShark.Kernel.Event
import WhaleShark.Kernel.SerialRx

/-!
# From the port to the command

A byte for the console takes this way: the interrupt routine stores it in the ring of the port, says
so with `SMSG_RX_DATA` when it has stored all that has come, `rt_event_recv` returns in
`usbconsole_rx_thread`, which reads the ring byte by byte until there is nothing more, and has each
buffer parsed. The routine and the thread are interleaved in any way; a flag that is sent while the
thread still reads is kept for its next call of `rt_event_recv`.

When the thread sleeps and the routine is idle, all that has come has been parsed, if the ring never
overflowed: no byte waits for the next one to come (`console_answers_all`).
-/

set_option autoImplicit false

namespace WhaleShark

open Foundations Kernel

/-! ## The event object of one thread -/

/-- `SMSG_RX_DATA` -/
def smsgRxData : Flags := 2

/-- `RT_EVENT_FLAG_OR|RT_EVENT_FLAG_CLEAR` -/
def orClear : EventOption := ⟨.any, true⟩

/-- An event object that one thread waits at for `SMSG_RX_DATA`: the thread is elsewhere, or it
sleeps, or it was woken; and whether the flag is set. -/
inductive Alarm where
  | idle (set : Bool)
  | asleep
  | woken (set : Bool)
  deriving DecidableEq

/-- `SMSG_RX_DATA`, or nothing -/
def flagIf (set : Bool) : Flags := if set then smsgRxData else 0

/-- The event object. -/
def Alarm.event : Alarm → RtEvent Unit
  | .idle set => ⟨flagIf set, [], fun _ => .outside⟩
  | .asleep => ⟨0, [()], fun _ => .waits smsgRxData orClear (-1) .suspended⟩
  | .woken set => ⟨flagIf set, [], fun _ => .waits smsgRxData orClear (-1) (.ready .ok)⟩

/-- `rt_event_send` with `SMSG_RX_DATA` -/
def Alarm.send : Alarm → Alarm
  | .idle _ => .idle true
  | .asleep => .woken false
  | .woken _ => .woken true

theorem update_unit {α : Type*} (f : Unit → α) (a : α) : Function.update f () a = fun _ => a :=
  funext fun _ => Function.update_self () a f

theorem Alarm.event_send (a : Alarm) : a.event.rtEventSend smsgRxData = a.send.event := by
  cases a with
  | idle set => cases set <;> rfl
  | asleep =>
      -- the thread has what it waits for, and clears it
      have resumed : resumeLoop [()] smsgRxData
          (fun _ : Unit => .waits smsgRxData orClear (-1) .suspended) =
          ([], 0, fun _ => .waits smsgRxData orClear (-1) (.ready .ok)) := by
        simp only [resumeLoop]
        rw [if_pos (by decide), update_unit]
        rfl
      exact congrArg (fun looped => (⟨looped.2.1, looped.1, looped.2.2⟩ : RtEvent Unit)) resumed
  | woken set => cases set <;> rfl

/-- The thread calls `rt_event_recv`, and what it gets. -/
def Alarm.recv : Alarm → Option (Alarm × EventOutput)
  | .idle true => some (.idle false, .received smsgRxData)
  | .idle false => some (.asleep, .nothing)
  | _ => none

/-- `rt_event_recv` returns in the thread that was woken. -/
def Alarm.runs : Alarm → Option (Alarm × EventOutput)
  | .woken set => some (.idle set, .received smsgRxData)
  | _ => none

theorem Alarm.event_recv (a : Alarm) :
    (eventObject .fifo fun _ => 0).step a.event (.recv () smsgRxData orClear (-1)) =
      a.recv.map fun next => (next.1.event, next.2) := by
  cases a with
  | idle set =>
      cases set with
      | true => rfl
      | false =>
          have step : (eventObject .fifo fun _ => 0).step (Alarm.idle false).event
              (.recv () smsgRxData orClear (-1)) =
              some (⟨0, [()], Function.update (fun _ => .outside) ()
                (.waits smsgRxData orClear (-1) .suspended)⟩, .nothing) := rfl
          rw [step, update_unit]
          rfl
  | asleep => rfl
  | woken set => rfl

theorem Alarm.event_runs (a : Alarm) :
    (eventObject .fifo fun _ => 0).step a.event (.runs ()) =
      a.runs.map fun next => (next.1.event, next.2) := by
  cases a with
  | idle set => rfl
  | asleep => rfl
  | woken set =>
      have step : (eventObject .fifo fun _ => 0).step (Alarm.woken set).event (.runs ()) =
          some (⟨flagIf set, [], Function.update
            (fun _ => .waits smsgRxData orClear (-1) (.ready .ok)) () .outside⟩,
            .received smsgRxData) := rfl
      rw [step, update_unit]
      rfl

/-! ## The port, the routine and the thread -/

/-- Where `rt_hw_serial_isr` is: it stores what comes, has looked how much there is, and calls
`usbconsole_rx_ind` then if that is not nothing. -/
inductive RxRoutine where
  | idle
  | stores
  | looked (rxLength : ℕ)
  deriving DecidableEq

/-- Where `usbconsole_rx_thread` is: at `rt_event_recv`, inside `rt_device_read` with some bytes
read of so many at most, or about to parse what was read; behind `DeviceReboot` it does not go on.
-/
inductive RxThread where
  | recv
  | reads (size : ℕ) (buffer : List UInt8)
  | parses (buffer : List UInt8)
  | stopped
  deriving DecidableEq

structure ConsolePath (bufsz : ℕ) (σ : Type) where
  fifo : SerialRxFifo bufsz
  routine : RxRoutine
  event : RtEvent Unit
  thread : RxThread
  console : UsbConsole σ

inductive PathEvent where
  /-- the routine stores a byte -/
  | receive (ch : UInt8)
  /-- there is no more, and the routine looks how much is in the ring -/
  | look
  /-- it calls `usbconsole_rx_ind`, or not -/
  | indicate
  /-- the thread calls `rt_event_recv` -/
  | recv
  /-- `rt_event_recv` returns in the thread that was suspended -/
  | runs
  /-- a round of the loop of `_serial_int_rx` -/
  | read
  /-- `ParserCliCommand`, and what stands around it in the loop of the thread -/
  | parse
  deriving DecidableEq

/-- The size that the thread reads into -/
def UsbConsole.room {σ : Type} (s : UsbConsole σ) : ℕ :=
  rtSerialRbBufsz - if rtSerialRbBufsz ≤ s.uRemain then 0 else s.uRemain

section

variable {σ : Type} (handle : CliHandlers σ) (bufsz : ℕ)

/-- Behind `rt_event_recv`: with the flag the thread goes into its loop. -/
def ConsolePath.returned (s : ConsolePath bufsz σ) (event : RtEvent Unit) :
    EventOutput → ConsolePath bufsz σ
  | .received events =>
      if smsgRxData &&& events ≠ 0 then
        { s with event := event, thread := .reads s.console.room [] }
      else { s with event := event }
  | _ => { s with event := event }

/-- The way of a byte. -/
def consolePath : Machine (ConsolePath bufsz σ) PathEvent Unit where
  step s
    | .receive ch =>
        match s.routine with
        | .looked _ => none
        | _ => some ({ s with fifo := s.fifo.receive ch, routine := .stores }, ())
    | .look =>
        match s.routine with
        | .looked _ => none
        | _ => some ({ s with routine := .looked s.fifo.rxLength }, ())
    | .indicate =>
        match s.routine with
        | .looked rxLength =>
            some ({ s with
              event := if rxLength ≠ 0 then s.event.rtEventSend smsgRxData else s.event
              routine := .idle }, ())
        | _ => none
    | .recv =>
        match s.thread with
        | .recv =>
            ((eventObject .fifo fun _ => 0).step s.event (.recv () smsgRxData orClear (-1))).map
              fun next => (s.returned bufsz next.1 next.2, ())
        | _ => none
    | .runs =>
        match s.thread with
        | .recv =>
            ((eventObject .fifo fun _ => 0).step s.event (.runs ())).map
              fun next => (s.returned bufsz next.1 next.2, ())
        | _ => none
    | .read =>
        match s.thread with
        | .reads size buffer =>
            if buffer.length < size then
              match s.fifo.take with
              | some (ch, fifo) =>
                  some ({ s with fifo := fifo, thread := .reads size (buffer ++ [ch]) }, ())
              | none => some ({ s with thread := .parses buffer }, ())
            else some ({ s with thread := .parses buffer }, ())
        | _ => none
    | .parse =>
        match s.thread with
        | .parses buffer =>
            match (usbConsole handle).step s.console ⟨buffer⟩ with
            | some (console, _) =>
                some ({ s with
                  console := console
                  thread :=
                    if console.console.rebooted then .stopped
                    else if 0 < buffer.length then .reads console.room []
                    else .recv }, ())
            | none => none
        | _ => none

abbrev PathTransition (bufsz : ℕ) (σ : Type) := Transition (ConsolePath bufsz σ) PathEvent Unit

/-- `rt_event_create` and `rt_device_open` -/
def startPath (zero : 0 < bufsz) (rxBuf : Block UInt8 rtSerialRbBufsz) (system : σ) :
    ConsolePath bufsz σ where
  fifo := .opened zero
  routine := .idle
  event := rtEventCreate Unit
  thread := .recv
  console := beforeConsole rxBuf system

/-! ## What a step can do -/

variable {handle bufsz} {s s' : ConsolePath bufsz σ} {a : Alarm} {e : PathEvent} {o : Unit}

/-- The steps, with the event object before and after. -/
inductive PathStep (handle : CliHandlers σ) (s : ConsolePath bufsz σ) (a : Alarm) :
    PathEvent → ConsolePath bufsz σ → Alarm → Prop where
  | receive {ch : UInt8} (listens : ∀ n, s.routine ≠ .looked n) :
      PathStep handle s a (.receive ch) { s with fifo := s.fifo.receive ch, routine := .stores } a
  | look (listens : ∀ n, s.routine ≠ .looked n) :
      PathStep handle s a .look { s with routine := .looked s.fifo.rxLength } a
  | indicate {n : ℕ} (looked : s.routine = .looked n) (some_ : n ≠ 0) :
      PathStep handle s a .indicate { s with event := a.send.event, routine := .idle } a.send
  | silent (looked : s.routine = .looked 0) :
      PathStep handle s a .indicate { s with routine := .idle } a
  | sleeps (calls : s.thread = .recv) (unset : a = .idle false) :
      PathStep handle s a .recv { s with event := Alarm.asleep.event } .asleep
  | gets (calls : s.thread = .recv) (set_ : a = .idle true) :
      PathStep handle s a .recv
        { s with event := (Alarm.idle false).event, thread := .reads s.console.room [] } (.idle false)
  | wakes {set : Bool} (calls : s.thread = .recv) (woken : a = .woken set) :
      PathStep handle s a .runs
        { s with event := (Alarm.idle set).event, thread := .reads s.console.room [] } (.idle set)
  | byte {size : ℕ} {buffer : List UInt8} {ch : UInt8} {fifo : SerialRxFifo bufsz}
      (reads : s.thread = .reads size buffer) (taken : s.fifo.take = some (ch, fifo)) :
      PathStep handle s a .read { s with fifo := fifo, thread := .reads size (buffer ++ [ch]) } a
  | ends {size : ℕ} {buffer : List UInt8} (reads : s.thread = .reads size buffer)
      (why : size ≤ buffer.length ∨ s.fifo.take = none) :
      PathStep handle s a .read { s with thread := .parses buffer } a
  | parse {buffer : List UInt8} {console : UsbConsole σ} (parses : s.thread = .parses buffer)
      (step : (usbConsole handle).step s.console ⟨buffer⟩ = some (console, ())) :
      PathStep handle s a .parse
        { s with
          console := console
          thread :=
            if console.console.rebooted then .stopped
            else if 0 < buffer.length then .reads console.room []
            else .recv } a

theorem consolePath_cases (alarm : s.event = a.event)
    (step : (consolePath handle bufsz).step s e = some (s', o)) :
    ∃ a', s'.event = a'.event ∧ PathStep handle s a e s' a' := by
  obtain ⟨fifo, routine, event, thread, console⟩ := s
  dsimp only at alarm
  subst alarm
  cases e with
  | receive ch =>
      cases routine with
      | looked n => cases step
      | _ =>
          cases step
          exact ⟨a, rfl, .receive fun _ => nofun⟩
  | look =>
      cases routine with
      | looked n => cases step
      | _ =>
          cases step
          exact ⟨a, rfl, .look fun _ => nofun⟩
  | indicate =>
      cases routine with
      | looked n =>
          simp only [consolePath] at step
          by_cases nothing : n = 0
          · subst nothing
            cases step
            exact ⟨a, rfl, .silent rfl⟩
          · rw [if_pos nothing, a.event_send] at step
            cases step
            exact ⟨a.send, rfl, .indicate rfl nothing⟩
      | _ => cases step
  | recv =>
      cases thread with
      | recv =>
          simp only [consolePath, a.event_recv] at step
          cases a with
          | idle set =>
              cases set with
              | false =>
                  cases step
                  exact ⟨.asleep, rfl, .sleeps rfl rfl⟩
              | true =>
                  cases step
                  exact ⟨.idle false, rfl, .gets rfl rfl⟩
          | _ => cases step
      | _ => cases step
  | runs =>
      cases thread with
      | recv =>
          simp only [consolePath, a.event_runs] at step
          cases a with
          | woken set =>
              cases step
              exact ⟨.idle set, rfl, .wakes rfl rfl⟩
          | _ => cases step
      | _ => cases step
  | read =>
      cases thread with
      | reads size buffer =>
          simp only [consolePath] at step
          split at step
          · split at step
            · rename_i taken
              cases step
              exact ⟨a, rfl, .byte rfl taken⟩
            · rename_i nothing
              cases step
              exact ⟨a, rfl, .ends rfl (.inr nothing)⟩
          · rename_i full
            cases step
            exact ⟨a, rfl, .ends rfl (.inl (Nat.le_of_not_lt full))⟩
      | _ => cases step
  | parse =>
      cases thread with
      | parses buffer =>
          simp only [consolePath] at step
          split at step
          · rename_i parsed
            cases step
            exact ⟨a, rfl, .parse rfl parsed⟩
          · cases step
      | _ => cases step

/-! ## No byte is left behind -/

/-- Somebody will still look at the ring: the routine is to send the flag, the flag is set or on its
way, or the thread reads on. -/
inductive ConsolePath.Attended (s : ConsolePath bufsz σ) (a : Alarm) : Prop where
  | stores (stores : s.routine = .stores)
  | looked {n : ℕ} (looked : s.routine = .looked n) (some_ : n ≠ 0)
  | set (set_ : a = .idle true)
  | woken {set : Bool} (woken : a = .woken set)
  | reads {size : ℕ} {buffer : List UInt8} (reads : s.thread = .reads size buffer)
  | parses {buffer : List UInt8} (parses : s.thread = .parses buffer) (some_ : buffer ≠ [])
  | stopped (stopped : s.thread = .stopped)

/-- What the routine, the thread and the event object keep to. -/
structure ConsolePath.Watched (s : ConsolePath bufsz σ) (a : Alarm) : Prop where
  marks : s.fifo.Marks
  calls : (∀ set, a ≠ .idle set) → s.thread = .recv
  room : ∀ size buffer, s.thread = .reads size buffer → 0 < size
  looked : s.routine = .looked 0 → s.fifo.contents = []
  attended : s.fifo.contents ≠ [] → s.Attended a

theorem UsbConsole.room_pos (s : UsbConsole σ) : 0 < s.room := by
  unfold UsbConsole.room rtSerialRbBufsz
  split <;> omega

theorem watched_of_step {a' : Alarm} (two : 2 ≤ bufsz) (watched : s.Watched a)
    (step : PathStep handle s a e s' a') : s'.Watched a' := by
  obtain ⟨marks, calls, room, looked, attended⟩ := watched
  cases step with
  | receive listens =>
      exact ⟨SerialRxFifo.marks_receive two _, calls, room, nofun, fun _ => .stores rfl⟩
  | look listens =>
      have count := s.fifo.length_contents
      refine ⟨marks, calls, room, fun zero => ?_, fun some_ => .looked rfl fun zero => some_ ?_⟩
      · exact List.length_eq_zero_iff.mp (count.trans (RxRoutine.looked.inj zero))
      · exact List.length_eq_zero_iff.mp (count.trans zero)
  | indicate looked' some_ =>
      refine ⟨marks, fun other => calls fun set same => ?_, room, nofun, fun _ => ?_⟩
      · subst same
        exact other true rfl
      · cases a with
        | idle set => exact .set rfl
        | asleep => exact .woken rfl
        | woken set => exact .woken rfl
  | silent looked' =>
      exact ⟨marks, calls, room, nofun, fun some_ => absurd (looked looked') some_⟩
  | sleeps calls' unset =>
      refine ⟨marks, fun _ => calls', room, looked, fun some_ => ?_⟩
      cases attended some_ with
      | stores stores => exact .stores stores
      | looked looked' some_ => exact .looked looked' some_
      | set set_ => exact absurd (unset.symm.trans set_) (by decide)
      | woken woken => exact absurd (unset.symm.trans woken) nofun
      | reads reads => exact absurd (calls'.symm.trans reads) nofun
      | parses parses => exact absurd (calls'.symm.trans parses) nofun
      | stopped stopped => exact absurd (calls'.symm.trans stopped) nofun
  | gets calls' set_ =>
      refine ⟨marks, fun other => absurd rfl (other false), ?_, looked, fun _ => .reads rfl⟩
      intro size buffer same
      exact (RxThread.reads.inj same).1 ▸ s.console.room_pos
  | @wakes set calls' woken =>
      refine ⟨marks, fun other => absurd rfl (other set), ?_, looked, fun _ => .reads rfl⟩
      intro size buffer same
      exact (RxThread.reads.inj same).1 ▸ s.console.room_pos
  | byte reads taken =>
      obtain ⟨contents, marks'⟩ := SerialRxFifo.take_eq_some taken marks
      refine ⟨marks', fun other => absurd ((calls other).symm.trans reads) nofun, ?_, ?_,
        fun _ => .reads rfl⟩
      · intro size' buffer' same
        exact (RxThread.reads.inj same).1 ▸ room _ _ reads
      · intro zero
        exact absurd (contents.symm.trans (looked zero)) nofun
  | @ends size buffer reads why =>
      have some_ := room _ _ reads
      refine ⟨marks, fun other => absurd ((calls other).symm.trans reads) nofun, nofun, looked,
        fun left => ?_⟩
      rcases why with full | nothing
      · refine .parses rfl fun empty => ?_
        rw [empty, List.length_nil] at full
        omega
      · exact absurd ((SerialRxFifo.take_eq_none_iff marks).mp nothing) left
  | @parse buffer console parses step' =>
      refine ⟨marks, fun other => absurd ((calls other).symm.trans parses) nofun, ?_, looked,
        fun left => ?_⟩
      · intro size buffer' same
        dsimp only at same
        split at same
        · cases same
        · split at same
          · exact (RxThread.reads.inj same).1 ▸ console.room_pos
          · cases same
      · cases attended left with
        | stores stores => exact .stores stores
        | looked looked' some_ => exact .looked looked' some_
        | set set_ => exact .set set_
        | woken woken => exact .woken woken
        | reads reads => exact absurd (parses.symm.trans reads) nofun
        | @parses buffer' parses' some_ =>
            obtain rfl := RxThread.parses.inj (parses.symm.trans parses')
            by_cases rebooted : console.console.rebooted = true
            · exact .stopped (if_pos rebooted)
            · refine .reads ((if_neg rebooted).trans (if_pos ?_))
              exact List.length_pos_iff.mpr some_
        | stopped stopped => exact absurd (parses.symm.trans stopped) nofun

/-! ## No byte is lost or changed on the way -/

/-- A byte has come. -/
def portByte (τ : PathTransition bufsz σ) : Option UInt8 :=
  match τ.event with
  | .receive ch => some ch
  | _ => none

/-- The bytes that are parsed. -/
def parsedBytes (τ : PathTransition bufsz σ) : List UInt8 :=
  match τ.event, τ.source.thread with
  | .parse, .parses buffer => buffer
  | _, _ => []

/-- A byte comes while the ring is full. -/
def PortOverflows (τ : PathTransition bufsz σ) : Prop :=
  (portByte τ).isSome ∧ τ.source.fifo.rxLength + 1 = bufsz

instance (τ : PathTransition bufsz σ) : Decidable (PortOverflows τ) :=
  inferInstanceAs (Decidable (_ ∧ _))

/-- What the thread has read and not parsed. -/
def RxThread.hand : RxThread → List UInt8
  | .reads _ buffer => buffer
  | .parses buffer => buffer
  | _ => []

variable {start : UsbConsole σ} {past : List (PathTransition bufsz σ)}

/-- **One step** moves the bytes on in order. -/
theorem bytes_of_step {a' : Alarm} (watched : s.Watched a) (step : PathStep handle s a e s' a')
    (room : ¬ PortOverflows ⟨s, e, o, s'⟩) :
    s.thread.hand ++ s.fifo.contents ++ (portByte ⟨s, e, o, s'⟩).toList =
      parsedBytes ⟨s, e, o, s'⟩ ++ (s'.thread.hand ++ s'.fifo.contents) := by
  cases step with
  | @receive ch listens =>
      have bound := s.fifo.rxLength_lt
      have less : s.fifo.rxLength + 1 < bufsz :=
        Nat.lt_of_le_of_ne bound fun full => room ⟨rfl, full⟩
      have stored : (s.fifo.receive ch).contents = s.fifo.contents ++ [ch] :=
        SerialRxFifo.contents_receive less
      simp only [portByte, parsedBytes, Option.toList_some, List.nil_append, stored,
        List.append_assoc]
  | look => simp [portByte, parsedBytes]
  | indicate => simp [portByte, parsedBytes]
  | silent => simp [portByte, parsedBytes]
  | sleeps calls => simp [portByte, parsedBytes]
  | gets calls => simp [portByte, parsedBytes, RxThread.hand, calls]
  | wakes calls => simp [portByte, parsedBytes, RxThread.hand, calls]
  | byte reads taken =>
      have contents := (SerialRxFifo.take_eq_some taken watched.marks).1
      simp [portByte, parsedBytes, RxThread.hand, reads, contents]
  | ends reads => simp [portByte, parsedBytes, RxThread.hand, reads]
  | @parse buffer console parses step' =>
      have empty : (if console.console.rebooted then RxThread.stopped
          else if 0 < buffer.length then .reads console.room [] else .recv).hand = [] := by
        split
        · rfl
        · split <;> rfl
      rw [empty]
      simp [portByte, parsedBytes, parses, RxThread.hand]

/-- What has come so far: it was parsed, or is on its way; and what was parsed has led to what its
lines lead to. -/
structure ConsolePath.SoFar (handle : CliHandlers σ) (start : Console σ)
    (past : List (PathTransition bufsz σ)) (s : ConsolePath bufsz σ) : Prop where
  alarm : ∃ a : Alarm, s.event = a.event ∧ s.Watched a
  bytes : past.filterMap portByte =
    past.flatMap parsedBytes ++ (s.thread.hand ++ s.fifo.contents)
  console : ∃ reads lines rest, ConsoleSoFar handle start reads s.console lines rest ∧
    bytesRead reads = past.flatMap parsedBytes

theorem portBytes_snoc (past : List (PathTransition bufsz σ)) (τ : PathTransition bufsz σ) :
    (past ++ [τ]).filterMap portByte = past.filterMap portByte ++ (portByte τ).toList := by
  rw [List.filterMap_append, Machine.Ledger.filterMap_singleton_toList]

theorem parsedBytes_snoc (past : List (PathTransition bufsz σ)) (τ : PathTransition bufsz σ) :
    (past ++ [τ]).flatMap parsedBytes = past.flatMap parsedBytes ++ parsedBytes τ := by
  simp

theorem soFar_of_step (two : 2 ≤ bufsz) {console : Console σ} {τ : PathTransition bufsz σ}
    (takes : (consolePath handle bufsz).Takes τ) (room : ¬ PortOverflows τ)
    (fit : LinesFit ((past ++ [τ]).filterMap portByte))
    (before : τ.source.SoFar handle console past) : τ.target.SoFar handle console (past ++ [τ]) := by
  obtain ⟨⟨a, alarm, watched⟩, bytes, reads, lines, rest, soFar, same⟩ := before
  have bytes' : (past ++ [τ]).filterMap portByte =
      (past ++ [τ]).flatMap parsedBytes ++ (τ.target.thread.hand ++ τ.target.fifo.contents) := by
    obtain ⟨a', alarm', step⟩ := consolePath_cases alarm takes
    have moved := bytes_of_step (o := τ.output) watched step room
    rw [portBytes_snoc, parsedBytes_snoc, bytes, List.append_assoc, moved, List.append_assoc]
  rw [bytes'] at fit
  have fit' : LinesFit ((past ++ [τ]).flatMap parsedBytes) := fit.of_append
  obtain ⟨s, e, o, s'⟩ := τ
  obtain ⟨a', alarm', (step : PathStep handle s a e s' a')⟩ := consolePath_cases alarm takes
  refine ⟨⟨a', alarm', watched_of_step two watched step⟩, bytes', ?_⟩
  rw [parsedBytes_snoc] at fit' ⊢
  dsimp only at soFar
  cases step with
  | @parse buffer console' parses step' =>
      have parsed : ∀ s'', parsedBytes (⟨s, .parse, o, s''⟩ : PathTransition bufsz σ) = buffer := by
        intro s''
        simp only [parsedBytes, parses]
      rw [parsed, ← same] at fit' ⊢
      let σ' : ConsoleTransition σ := ⟨s.console, ⟨buffer⟩, (), console'⟩
      rw [← bytesRead_concat reads σ'] at fit'
      obtain ⟨lines', rest', after⟩ := soFar.extends (τ := σ') handle step' fit'
      exact ⟨reads ++ [σ'], lines', rest', after, bytesRead_concat reads σ'⟩
  | _ => exact ⟨reads, lines, rest, soFar, by simp [parsedBytes, same]⟩

/-- The thread is suspended in `rt_event_recv`, and the routine is idle. -/
def ConsolePath.Sleeps (s : ConsolePath bufsz σ) : Prop :=
  s.event.suspendThread = [()] ∧ s.routine = .idle

instance (s : ConsolePath bufsz σ) : Decidable s.Sleeps := inferInstanceAs (Decidable (_ ∧ _))

/-- Where the thread sleeps, nothing is in the ring or in its hand. -/
theorem ConsolePath.Watched.empty (watched : s.Watched a) (alarm : s.event = a.event)
    (sleeps : s.Sleeps) : s.thread.hand = [] ∧ s.fifo.contents = [] := by
  obtain ⟨listed, idle⟩ := sleeps
  rw [alarm] at listed
  cases a with
  | asleep =>
      have calls := watched.calls fun _ => nofun
      refine ⟨by rw [calls]; rfl, by_contra fun some_ => ?_⟩
      cases watched.attended some_ with
      | stores stores => exact absurd (idle.symm.trans stores) nofun
      | looked looked => exact absurd (idle.symm.trans looked) nofun
      | set set_ => cases set_
      | woken woken => cases woken
      | reads reads => exact absurd (calls.symm.trans reads) nofun
      | parses parses => exact absurd (calls.symm.trans parses) nofun
      | stopped stopped => exact absurd (calls.symm.trans stopped) nofun
  | _ => cases listed

/-- **All that has come is answered.** When the thread sleeps and the routine is idle, what the
commands have led to is what the lines lead to that have come, one after the other, if the ring
never overflowed and no line is longer than the buffer. -/
theorem console_answers_all (two : 2 ≤ bufsz) (zero : 0 < bufsz)
    {rxBuf : Block UInt8 rtSerialRbBufsz} {system : σ} {taken : List (PathTransition bufsz σ)}
    {last : ConsolePath bufsz σ}
    (run : (consolePath handle bufsz).Run (startPath bufsz zero rxBuf system) taken last)
    (room : ∀ τ ∈ taken, ¬ PortOverflows τ) {lines : List (List UInt8)} {tail : List UInt8}
    (all : InLines cr (taken.filterMap portByte) lines tail)
    (fit : ∀ line ∈ lines, line.length + 1 ≤ rtSerialRbBufsz) (sleeps : last.Sleeps) :
    last.console.console = (⟨system, [], false⟩ : Console σ).readLines handle lines := by
  have condition : ∀ past τ rest, taken = past ++ τ :: rest →
      ¬ PortOverflows τ ∧ LinesFit ((past ++ [τ]).filterMap portByte) := by
    intro past τ rest split
    have whole : taken.filterMap portByte =
        (past ++ [τ]).filterMap portByte ++ rest.filterMap portByte := by
      rw [split, ← List.filterMap_append, List.append_assoc, List.singleton_append]
    rw [whole] at all
    exact ⟨room τ (by simp [split]), (LinesFit.of_inLines all fit).of_append⟩
  have reached : Machine.Throughout
      (fun past s => s.SoFar handle ⟨system, [], false⟩ past) taken last := by
    refine run.history_of_past _ ?_ (fun past τ takes ok => soFar_of_step two takes ok.1 ok.2)
      condition
    have ring : (SerialRxFifo.opened zero).contents = [] := contents_opened zero
    have watched : (startPath bufsz zero rxBuf system).Watched (.idle false) :=
      ⟨marks_opened zero, fun other => absurd rfl (other false), nofun, nofun,
        fun some_ => absurd ring some_⟩
    have nothing : (beforeConsole rxBuf system).Holds [] :=
      ⟨Nat.zero_le _, Block.read_zero_length rxBuf 0⟩
    refine ⟨⟨.idle false, rfl, watched⟩, ?_, [], [], [], ⟨.of_unfinished List.not_mem_nil, rfl,
      fun _ => ⟨[], nothing, List.not_mem_nil, fun _ => rfl⟩⟩, rfl⟩
    exact ring.symm
  obtain ⟨⟨a, alarm, watched⟩, bytes, reads, lines', rest, soFar, same⟩ := reached.1
  obtain ⟨hand, ring⟩ := watched.empty alarm sleeps
  rw [hand, ring, List.append_nil, List.append_nil, ← same] at bytes
  rw [bytes] at all
  obtain ⟨rfl, -⟩ := all.unique soFar.all
  exact soFar.console

end

/-- The second half of a line comes while the thread parses the first one. -/
theorem console_answers_all_halves : ∃ taken last,
    (consolePath onlyLocalIp 8).Run
      (startPath 8 (by decide) (.fill rtSerialRbBufsz 0) []) taken last ∧ last.Sleeps ∧
      last.console.console.commands = [(.slip, text "9")] ∧
      last.console.console =
        (⟨[], [], false⟩ : Console (List UInt8)).readLines onlyLocalIp [text "AT+SLIP=9"] := by
  obtain ⟨taken, last, run, passed⟩ := (consolePath onlyLocalIp 8).exists_run_of_passes
    (startPath 8 (by decide) (.fill rtSerialRbBufsz 0) [])
    ([.recv] ++ (text "AT+SL").map .receive ++ [.look, .indicate, .runs] ++
      List.replicate 6 .read ++ (text "IP=9" ++ [cr]).map .receive ++ [.parse, .look] ++
      List.replicate 6 .read ++ [.indicate, .parse, .read, .parse, .recv, .read, .parse, .recv])
    (fun taken last => decide (taken.filterMap portByte = text "AT+SLIP=9" ++ [cr] ∧
      (∀ τ ∈ taken, ¬ PortOverflows τ) ∧ last.Sleeps ∧
      last.console.console.commands = [(.slip, text "9")])) (by decide +kernel)
  obtain ⟨bytes, room, sleeps, commands⟩ := of_decide_eq_true passed
  have all : InLines cr (taken.filterMap portByte) [text "AT+SLIP=9"] [] :=
    bytes ▸ ⟨by decide +kernel, by decide +kernel, List.not_mem_nil⟩
  exact ⟨taken, last, run, sleeps, commands,
    console_answers_all (by decide) (by decide) run room all (by decide +kernel) sleeps⟩

end WhaleShark

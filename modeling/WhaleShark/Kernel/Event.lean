import WhaleShark.Foundations.Runs
import WhaleShark.Foundations.Totals
import WhaleShark.Kernel.Ipc

/-!
# Event flags

An event object has 32 flags. A thread waits until all of some flags are set, or until one of them
is, and may have them cleared when it gets them. Sending sets flags and goes through the list of the
threads that wait, in order: each one that has what it waits for now is resumed with it, and what it
clears is not there for those behind it (`rtEventSend`). `rt_event_send` disables the interrupts for
the whole of that, and `rt_event_recv` until it returns or suspends the thread.
-/

set_option autoImplicit false

namespace WhaleShark.Kernel

open Foundations

/-- 32 flags -/
abbrev Flags := BitVec 32

/-- `RT_EVENT_FLAG_AND` or `RT_EVENT_FLAG_OR` -/
inductive EventMode where
  | all
  | any
  deriving DecidableEq, Repr

/-- The option of `rt_event_recv`, with or without `RT_EVENT_FLAG_CLEAR` -/
structure EventOption where
  mode : EventMode
  clear : Bool
  deriving DecidableEq, Repr

/-- The condition of a thread that wants these flags -/
def EventOption.meets (option : EventOption) (wanted set : Flags) : Bool :=
  match option.mode with
  | .all => set &&& wanted = wanted
  | .any => set &&& wanted ≠ 0

/-- `thread->event_set` when it is met in `rt_event_send` -/
def EventOption.gets (option : EventOption) (wanted set : Flags) : Flags :=
  match option.mode with
  | .all => wanted
  | .any => wanted &&& set

/-- Where a thread is: `thread->event_set`, `thread->event_info`, and its state. -/
inductive EventProgress where
  | outside
  | waits (eventSet : Flags) (eventInfo : EventOption) (timeout : ℤ) (stat : Stat)
  deriving DecidableEq

/-- The flags, the list of the threads that are suspended, and all threads. -/
structure RtEvent (Thread : Type*) where
  set : Flags
  suspendThread : List Thread
  progress : Thread → EventProgress

inductive EventEvent (Thread : Type*) where
  /-- `rt_event_send` -/
  | send (set : Flags)
  /-- `rt_event_recv` is called -/
  | recv (t : Thread) (set : Flags) (option : EventOption) (timeout : ℤ)
  /-- `rt_schedule` returns in a thread that was resumed -/
  | runs (t : Thread)
  /-- `rt_thread_timeout` -/
  | expires (t : Thread)
  /-- `rt_event_control` with `RT_IPC_CMD_RESET` -/
  | reset
  deriving DecidableEq

inductive EventOutput where
  | nothing
  /-- `rt_event_recv` returns `RT_EOK` and these flags -/
  | received (recved : Flags)
  /-- a call returns this -/
  | failed (err : RtErr)
  deriving DecidableEq

variable {Thread : Type*} [DecidableEq Thread]

/-- The loop of `rt_event_send` over the list, from a thread on: the threads that stay in it, the
flags, and the threads. -/
def resumeLoop : List Thread → Flags → (Thread → EventProgress) →
    List Thread × Flags × (Thread → EventProgress)
  | [], set, progress => ([], set, progress)
  | thread :: rest, set, progress =>
      match progress thread with
      | .waits eventSet eventInfo timeout .suspended =>
          if eventInfo.meets eventSet set then
            let got := eventInfo.gets eventSet set
            resumeLoop rest (if eventInfo.clear then set &&& ~~~got else set)
              (Function.update progress thread (.waits got eventInfo timeout (.ready .ok)))
          else
            let (stay, set, progress) := resumeLoop rest set progress
            (thread :: stay, set, progress)
      | _ =>
          let (stay, set, progress) := resumeLoop rest set progress
          (thread :: stay, set, progress)

/-- A suspended thread is made ready with an error. -/
def EventProgress.fail (err : RtErr) : EventProgress → EventProgress
  | .waits eventSet eventInfo timeout .suspended => .waits eventSet eventInfo timeout (.ready err)
  | p => p

namespace RtEvent

variable (s : RtEvent Thread)

/-- `rt_event_send` with at least one flag -/
def rtEventSend (set : Flags) : RtEvent Thread :=
  let looped := resumeLoop s.suspendThread (s.set ||| set) s.progress
  ⟨looped.2.1, looped.1, looped.2.2⟩

/-- `rt_event_recv` with at least one flag -/
def rtEventRecv (flag : IpcFlag) (priority : Thread → ℕ) (t : Thread) (set : Flags)
    (option : EventOption) (timeout : ℤ) : RtEvent Thread × EventOutput :=
  if option.meets set s.set then
    ({ s with set := if option.clear then s.set &&& ~~~set else s.set }, .received (s.set &&& set))
  else if timeout = 0 then (s, .failed .timeout)
  else
    ({ s with
      suspendThread := rtIpcListSuspend flag priority s.suspendThread t
      progress := Function.update s.progress t (.waits set option timeout .suspended) }, .nothing)

/-- `rt_event_control` with `RT_IPC_CMD_RESET` -/
def rtEventReset : RtEvent Thread where
  set := 0
  suspendThread := []
  progress := s.suspendThread.foldl
    (fun progress t => Function.update progress t ((progress t).fail .error)) s.progress

end RtEvent

/-- Any threads that send and receive flags. -/
def eventObject (flag : IpcFlag) (priority : Thread → ℕ) :
    Machine (RtEvent Thread) (EventEvent Thread) EventOutput where
  step s
    | .send set =>
        if set = 0 then some (s, .failed .error) else some (s.rtEventSend set, .nothing)
    | .recv t set option timeout =>
        match s.progress t with
        | .outside =>
            if set = 0 then some (s, .failed .error)
            else some (s.rtEventRecv flag priority t set option timeout)
        | _ => none
    | .runs t =>
        match s.progress t with
        | .waits eventSet _ _ (.ready .ok) =>
            some ({ s with progress := Function.update s.progress t .outside },
              .received eventSet)
        | .waits _ _ _ (.ready err) =>
            some ({ s with progress := Function.update s.progress t .outside }, .failed err)
        | _ => none
    | .expires t =>
        match s.progress t with
        | .waits _ _ timeout .suspended =>
            if 0 < timeout then
              some ({ s with
                suspendThread := s.suspendThread.erase t
                progress := Function.update s.progress t ((s.progress t).fail .timeout) }, .nothing)
            else none
        | _ => none
    | .reset => some (s.rtEventReset, .nothing)

abbrev EventTransition (Thread : Type*) :=
  Transition (RtEvent Thread) (EventEvent Thread) EventOutput

/-- `rt_event_create` -/
def rtEventCreate (Thread : Type*) : RtEvent Thread where
  set := 0
  suspendThread := []
  progress := fun _ => .outside

end WhaleShark.Kernel

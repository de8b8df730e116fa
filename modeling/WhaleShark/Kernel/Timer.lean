import WhaleShark.Foundations.Deadlines
import WhaleShark.Foundations.Simulations

/-!
# Timers

A timer that is started is put into a list in the order of the ticks at which the timers run out.
The tick interrupt counts and goes through the front of the list (`rtTimerCheck`): a timer that has
run out is taken out, its function is called, and it is started again if it is periodic. Ticks are
words of 32 bits, and are compared by their difference.

`rt_timer_start` takes the timer out of the list first, reads the tick, and puts it in then; in
between there may be interrupts. Beside these steps there are `rt_timer_stop` and
`rt_timer_control`. It is assumed that no interrupt comes within `rt_timer_stop`, that two threads
do not start one timer at the same time, and that the functions of the timers call no timer
function.
-/

set_option autoImplicit false

namespace WhaleShark.Kernel

open Foundations

/-- `RT_TICK_MAX / 2` -/
def halfTickMax : UInt32 := 0xffffffff / 2

/-- `struct rt_timer`, without its function -/
structure RtTimer where
  /-- `RT_TIMER_FLAG_ACTIVATED` -/
  activated : Bool
  /-- `RT_TIMER_FLAG_PERIODIC` -/
  periodic : Bool
  initTick : UInt32
  timeoutTick : UInt32
  deriving DecidableEq

namespace RtTimer

variable (timer : RtTimer)

def setActivated (activated : Bool) : RtTimer := { timer with activated := activated }

def setPeriodic (periodic : Bool) : RtTimer := { timer with periodic := periodic }

def setInitTick (initTick : UInt32) : RtTimer := { timer with initTick := initTick }

def setTimeoutTick (timeoutTick : UInt32) : RtTimer := { timer with timeoutTick := timeoutTick }

end RtTimer

/-- Where a call of `rt_timer_start` is: there is none, it has taken the timer out, or it has read
the tick; and what goes with that. -/
inductive Starting (Due : Type*) where
  | none
  | removed
  | computed (due : Due)
  deriving DecidableEq

/-- The tick, the list, and all timers. A call that has read the tick has so many ticks left before
the timer runs out. -/
structure RtTimers (Timer : Type*) where
  rtTick : UInt32
  rtTimerList : List Timer
  timer : Timer → RtTimer
  starting : Timer → Starting ℕ

inductive TimerEvent (Timer : Type*) where
  /-- `rt_tick_increase` -/
  | tick
  /-- `rt_timer_start` takes the timer out of the list -/
  | remove (t : Timer)
  /-- it reads the tick -/
  | clock (t : Timer)
  /-- it puts the timer in -/
  | insert (t : Timer)
  /-- `rt_timer_stop` -/
  | stop (t : Timer)
  /-- `rt_timer_control` with `RT_TIMER_CTRL_SET_TIME` -/
  | setTime (t : Timer) (initTick : UInt32)
  /-- `rt_timer_control` with `RT_TIMER_CTRL_SET_ONESHOT` or `RT_TIMER_CTRL_SET_PERIODIC` -/
  | setPeriodic (t : Timer) (periodic : Bool)
  deriving DecidableEq

inductive TimerOutput (Timer : Type*) where
  | nothing
  /-- the functions of these timers are called -/
  | fired (timers : List Timer)
  /-- `rt_timer_stop` returns `RT_EOK` or `-RT_ERROR` -/
  | stopped (ok : Bool)
  deriving DecidableEq

variable {Timer : Type*} [DecidableEq Timer]

/-- The place of a timer in the list: behind those that run out at the same tick, before the first
that runs out later. -/
def insertTimer (timeoutTick : Timer → UInt32) (timer : Timer) : List Timer → List Timer
  | [] => [timer]
  | t :: rest =>
      if timeoutTick t - timeoutTick timer = 0 then t :: insertTimer timeoutTick timer rest
      else if timeoutTick t - timeoutTick timer < halfTickMax then timer :: t :: rest
      else t :: insertTimer timeoutTick timer rest

namespace RtTimers

variable (s : RtTimers Timer)

/-- A field of one timer is set. -/
def modify (t : Timer) (f : RtTimer → RtTimer) : RtTimers Timer :=
  { s with timer := Function.update s.timer t (f (s.timer t)) }

/-- `_rt_timer_remove`, and the flag is cleared. -/
def remove (t : Timer) : RtTimers Timer where
  rtTick := s.rtTick
  rtTimerList := s.rtTimerList.erase t
  timer := (s.modify t (·.setActivated false)).timer
  starting := s.starting

/-- `timer->timeout_tick = rt_tick_get() + timer->init_tick` -/
def startClock (t : Timer) : RtTimers Timer :=
  s.modify t (·.setTimeoutTick (s.rtTick + (s.timer t).initTick))

/-- The rest of `rt_timer_start` -/
def startInsert (t : Timer) : RtTimers Timer where
  rtTick := s.rtTick
  rtTimerList := insertTimer (fun t => (s.timer t).timeoutTick) t s.rtTimerList
  timer := (s.modify t (·.setActivated true)).timer
  starting := s.starting

/-- `rt_timer_start` where nothing comes in between -/
def rtTimerStart (t : Timer) : RtTimers Timer :=
  ((s.remove t).startClock t).startInsert t

/-- The loop of `rt_timer_check`, for so many rounds: the timers whose functions are called, and
what is left. With `none` the loop goes on. -/
def rtTimerCheck : ℕ → RtTimers Timer → Option (List Timer × RtTimers Timer)
  | 0, _ => none
  | rounds + 1, s =>
      match s.rtTimerList with
      | [] => some ([], s)
      | t :: _ =>
          if s.rtTick - (s.timer t).timeoutTick < halfTickMax then
            let again := (s.timer t).periodic && (s.timer t).activated
            (rtTimerCheck rounds (if again then (s.remove t).rtTimerStart t else s.remove t)).map
              fun (fired, s) => (t :: fired, s)
          else some ([], s)

/-- `rt_tick_increase`, up to `rt_timer_check` -/
def count : RtTimers Timer :=
  { s with
    rtTick := s.rtTick + 1
    starting := fun t =>
      match s.starting t with
      | .computed left => .computed (left - 1)
      | other => other }

end RtTimers

/-- The tick interrupt, and any calls. -/
def rtTimers (Timer : Type*) [DecidableEq Timer] :
    Machine (RtTimers Timer) (TimerEvent Timer) (TimerOutput Timer) where
  step s
    | .tick =>
        (RtTimers.rtTimerCheck (s.rtTimerList.length + 1) s.count).map
          fun (fired, s) => (s, .fired fired)
    | .remove t =>
        match s.starting t with
        | .none => some
            ({ s.remove t with starting := Function.update s.starting t .removed }, .nothing)
        | _ => none
    | .clock t =>
        match s.starting t with
        | .removed => some
            ({ s.startClock t with
              starting := Function.update s.starting t
                (.computed (s.timer t).initTick.toNat) }, .nothing)
        | _ => none
    | .insert t =>
        match s.starting t with
        | .computed _ => some
            ({ s.startInsert t with starting := Function.update s.starting t .none }, .nothing)
        | _ => none
    | .stop t =>
        if (s.timer t).activated then some (s.remove t, .stopped true)
        else some (s, .stopped false)
    | .setTime t initTick => some (s.modify t (·.setInitTick initTick), .nothing)
    | .setPeriodic t periodic => some (s.modify t (·.setPeriodic periodic), .nothing)

abbrev TimerTransition (Timer : Type*) :=
  Transition (RtTimers Timer) (TimerEvent Timer) (TimerOutput Timer)

/-- After `rt_system_timer_init` and `rt_timer_create` for each timer -/
def RtTimers.created (periodic : Timer → Bool) (initTick : Timer → UInt32) : RtTimers Timer where
  rtTick := 0
  rtTimerList := []
  timer t := ⟨false, periodic t, initTick t, 0⟩
  starting _ := .none

end WhaleShark.Kernel

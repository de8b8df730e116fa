import Mathlib.Algebra.Ring.Nat
import WhaleShark.Foundations.Blocks
import WhaleShark.Foundations.Runs
import WhaleShark.Kernel.Ipc

/-!
# The message queue of the kernel

A message queue is a pool of cells of `msg_size` bytes. Each cell has a pointer, and is linked into
the list of the free cells or into the queue, or a call that is under way has it. The calls disable
the interrupts while they take a cell from a list or link it into one, and enable them for the copy
between. So a call is several steps here, and any calls of any threads interleave
(`messageQueue`).

A thread that finds no cell, or no message, is suspended until it is resumed, its time runs out, or
the queue is reset; when it runs on, it looks once more.
-/

set_option autoImplicit false

namespace WhaleShark.Kernel

open Foundations

/-- Behind the messages that wait, or before them. -/
inductive Place where
  | back
  | front
  deriving DecidableEq, Repr

/-- Where a thread is in a call, and the arguments that it has yet to use. `Msg` is what it knows of
the message in its hands. -/
inductive Progress (Msg : Type*) where
  | outside
  /-- in the loop of `rt_mq_send_wait` -/
  | sends (buffer : List UInt8) (timeout : ℤ) (stat : Stat)
  /-- with a cell that is to be filled -/
  | taken (place : Place) (buffer : List UInt8) (msg : Msg)
  /-- with a cell that is to be linked -/
  | filled (place : Place) (buffer : List UInt8) (msg : Msg)
  /-- in the loop of `rt_mq_recv` -/
  | receives (size : ℕ) (timeout : ℤ) (stat : Stat)
  /-- with a message that is to be copied -/
  | unlinked (size : ℕ) (msg : Msg)
  /-- with a cell that is to be given back -/
  | copied (bytes : List UInt8) (msg : Msg)

inductive MqEvent (Thread : Type*) where
  /-- `rt_mq_send_wait` is called; `rt_mq_send` is the call with timeout 0 -/
  | send (t : Thread) (buffer : List UInt8) (timeout : ℤ)
  /-- `rt_mq_urgent` is called -/
  | urgent (t : Thread) (buffer : List UInt8)
  /-- `rt_memcpy(msg + 1, buffer, size)` -/
  | fill (t : Thread)
  /-- the message is linked, and the call returns -/
  | link (t : Thread)
  /-- `rt_mq_recv` is called -/
  | recv (t : Thread) (size : ℕ) (timeout : ℤ)
  /-- `rt_memcpy(buffer, msg + 1, ..)` -/
  | copy (t : Thread)
  /-- the cell is given back, and the call returns -/
  | release (t : Thread)
  /-- `rt_schedule` returns in a thread that was resumed, so many ticks after it was called -/
  | runs (t : Thread) (elapsed : ℕ)
  /-- `rt_thread_timeout` -/
  | expires (t : Thread)
  /-- `rt_mq_control` with `RT_IPC_CMD_RESET` -/
  | reset
  deriving DecidableEq

inductive MqOutput where
  | nothing
  /-- a call that sends this returns `RT_EOK` -/
  | sent (buffer : List UInt8)
  /-- `rt_mq_recv` returns `RT_EOK` with this in the buffer -/
  | received (bytes : List UInt8)
  /-- a call returns this -/
  | failed (err : RtErr)
  deriving DecidableEq

section Threads

variable {Thread : Type*} [DecidableEq Thread] {Msg : Type*}

/-- A suspended thread is made ready. -/
def Progress.wake (err : RtErr) : Progress Msg → Progress Msg
  | .sends buffer timeout .suspended => .sends buffer timeout (.ready err)
  | .receives size timeout .suspended => .receives size timeout (.ready err)
  | p => p

/-- `thread->error` and `thread->stat` when a thread is resumed -/
def rtThreadResume (progress : Thread → Progress Msg) (err : RtErr) (t : Thread) :
    Thread → Progress Msg :=
  Function.update progress t ((progress t).wake err)

/-- `if (!rt_list_isempty(list)) rt_ipc_list_resume(list)` -/
def rtIpcListResume (list : List Thread) (progress : Thread → Progress Msg) :
    List Thread × (Thread → Progress Msg) :=
  match list with
  | [] => ([], progress)
  | t :: rest => (rest, rtThreadResume progress .ok t)

/-- `rt_ipc_list_resume_all` -/
def rtIpcListResumeAll (list : List Thread) (progress : Thread → Progress Msg) :
    Thread → Progress Msg :=
  list.foldl (fun progress t => rtThreadResume progress .error t) progress

/-- `timeout -= rt_tick_get() - tick_delta`, not below 0; a negative one is for ever. -/
def remaining (timeout : ℤ) (elapsed : ℕ) : ℤ :=
  if 0 < timeout then max 0 ((timeout - elapsed).bmod (2 ^ 32)) else timeout

end Threads

variable {Thread : Type*} [DecidableEq Thread] {maxMsgs msgSize : ℕ}

/-- `struct rt_messagequeue` with its pool, and the threads that use it -/
structure RtMessagequeue (Thread : Type*) (maxMsgs msgSize : ℕ) where
  next : Fin maxMsgs → Option (Fin maxMsgs)
  data : Fin maxMsgs → Block UInt8 msgSize
  msgQueueHead : Option (Fin maxMsgs)
  msgQueueTail : Option (Fin maxMsgs)
  msgQueueFree : Option (Fin maxMsgs)
  /-- a `rt_uint16_t` -/
  entry : ℕ
  suspendThread : List Thread
  suspendSenderThread : List Thread
  progress : Thread → Progress (Fin maxMsgs)

namespace RtMessagequeue

variable (flag : IpcFlag) (priority : Thread → ℕ) (s : RtMessagequeue Thread maxMsgs msgSize)

def setProgress (t : Thread) (p : Progress (Fin maxMsgs)) : RtMessagequeue Thread maxMsgs msgSize :=
  { s with progress := Function.update s.progress t p }

/-! ## Creation -/

/-- The loop over the pool: each cell is put before the free ones. -/
def linkFree : ℕ → (Fin maxMsgs → Option (Fin maxMsgs)) × Option (Fin maxMsgs) →
    (Fin maxMsgs → Option (Fin maxMsgs)) × Option (Fin maxMsgs)
  | 0, lists => lists
  | n + 1, lists =>
      let before := linkFree n lists
      if bound : n < maxMsgs then
        (Function.update before.1 ⟨n, bound⟩ before.2, some ⟨n, bound⟩)
      else before

/-- `rt_mq_create`, with what the memory of the pool happened to hold -/
def rtMqCreate (next : Fin maxMsgs → Option (Fin maxMsgs))
    (data : Fin maxMsgs → Block UInt8 msgSize) : RtMessagequeue Thread maxMsgs msgSize where
  next := (linkFree maxMsgs (next, none)).1
  data := data
  msgQueueHead := none
  msgQueueTail := none
  msgQueueFree := (linkFree maxMsgs (next, none)).2
  entry := 0
  suspendThread := []
  suspendSenderThread := []
  progress := fun _ => .outside

/-! ## The parts of the calls -/

/-- The loop of `rt_mq_send_wait` up to where the thread is suspended, and the cell that is taken.
-/
def sendWait (t : Thread) (buffer : List UInt8) (timeout : ℤ) :
    RtMessagequeue Thread maxMsgs msgSize × MqOutput :=
  match s.msgQueueFree with
  | some msg =>
      ({ s.setProgress t (.taken .back buffer msg) with msgQueueFree := s.next msg }, .nothing)
  | none =>
      if timeout = 0 then (s.setProgress t .outside, .failed .full)
      else
        ({ s.setProgress t (.sends buffer timeout .suspended) with
          suspendSenderThread := rtIpcListSuspend flag priority s.suspendSenderThread t }, .nothing)

/-- `rt_mq_urgent` up to the copy -/
def urgentTake (t : Thread) (buffer : List UInt8) :
    RtMessagequeue Thread maxMsgs msgSize × MqOutput :=
  match s.msgQueueFree with
  | some msg =>
      ({ s.setProgress t (.taken .front buffer msg) with msgQueueFree := s.next msg }, .nothing)
  | none => (s, .failed .full)

/-- `msg->next = RT_NULL` in `rt_mq_send_wait`, and the copy -/
def fillMsg (t : Thread) (place : Place) (buffer : List UInt8) (msg : Fin maxMsgs) :
    RtMessagequeue Thread maxMsgs msgSize :=
  { s.setProgress t (.filled place buffer msg) with
    next := match place with
      | .back => Function.update s.next msg none
      | .front => s.next
    data := Function.update s.data msg ((s.data msg).write 0 buffer) }

/-- The message is linked at the back, or at the front. -/
def linkMsg (place : Place) (msg : Fin maxMsgs) : RtMessagequeue Thread maxMsgs msgSize :=
  match place with
  | .back =>
      { s with
        next := match s.msgQueueTail with
          | some last => Function.update s.next last (some msg)
          | none => s.next
        msgQueueTail := some msg
        msgQueueHead := if s.msgQueueHead = none then some msg else s.msgQueueHead
        entry := (s.entry + 1) % 2 ^ 16 }
  | .front =>
      { s with
        next := Function.update s.next msg s.msgQueueHead
        msgQueueHead := some msg
        msgQueueTail := if s.msgQueueTail = none then some msg else s.msgQueueTail
        entry := (s.entry + 1) % 2 ^ 16 }

/-- A thread that waits for a message is resumed. -/
def resumeReceiver : RtMessagequeue Thread maxMsgs msgSize :=
  { s with
    suspendThread := (rtIpcListResume s.suspendThread s.progress).1
    progress := (rtIpcListResume s.suspendThread s.progress).2 }

/-- A thread that waits for a cell is resumed. -/
def resumeSender : RtMessagequeue Thread maxMsgs msgSize :=
  { s with
    suspendSenderThread := (rtIpcListResume s.suspendSenderThread s.progress).1
    progress := (rtIpcListResume s.suspendSenderThread s.progress).2 }

/-- The loop of `rt_mq_recv`, and the message that is unlinked. Without a head a null pointer would
be followed. -/
def recvWait (t : Thread) (size : ℕ) (timeout : ℤ) :
    Option (RtMessagequeue Thread maxMsgs msgSize × MqOutput) :=
  if s.entry = 0 then
    if timeout = 0 then some (s.setProgress t .outside, .failed .timeout)
    else
      some ({ s.setProgress t (.receives size timeout .suspended) with
        suspendThread := rtIpcListSuspend flag priority s.suspendThread t }, .nothing)
  else
    match s.msgQueueHead with
    | none => none
    | some msg =>
        some ({ s.setProgress t (.unlinked size msg) with
          msgQueueHead := s.next msg
          msgQueueTail := if s.msgQueueTail = some msg then none else s.msgQueueTail
          entry := (s.entry + 2 ^ 16 - 1) % 2 ^ 16 }, .nothing)

/-- `msg->next = mq->msg_queue_free; mq->msg_queue_free = msg` -/
def freeMsg (msg : Fin maxMsgs) : RtMessagequeue Thread maxMsgs msgSize :=
  { s with
    next := Function.update s.next msg s.msgQueueFree
    msgQueueFree := some msg }

/-- A round of the loop of `rt_mq_control`: the first message is unlinked and freed. -/
def releaseMsg (msg : Fin maxMsgs) : RtMessagequeue Thread maxMsgs msgSize :=
  { s with
    msgQueueHead := s.next msg
    msgQueueTail := if s.msgQueueTail = some msg then none else s.msgQueueTail
    next := Function.update s.next msg s.msgQueueFree
    msgQueueFree := some msg }

/-- The loop of `rt_mq_control` that releases the messages: at most so many rounds. -/
def releaseAll : ℕ → RtMessagequeue Thread maxMsgs msgSize →
    Option (RtMessagequeue Thread maxMsgs msgSize)
  | 0, s => if s.msgQueueHead = none then some s else none
  | rounds + 1, s =>
      match s.msgQueueHead with
      | none => some s
      | some msg => releaseAll rounds (s.releaseMsg msg)

/-- All threads that wait are resumed with an error. -/
def resumeAll : RtMessagequeue Thread maxMsgs msgSize :=
  { s with
    suspendThread := []
    suspendSenderThread := []
    progress := rtIpcListResumeAll s.suspendSenderThread
      (rtIpcListResumeAll s.suspendThread s.progress) }

/-- `rt_mq_control` with `RT_IPC_CMD_RESET` -/
def rtMqReset : Option (RtMessagequeue Thread maxMsgs msgSize) :=
  (releaseAll maxMsgs s.resumeAll).map fun s => { s with entry := 0 }

end RtMessagequeue

/-! ## The machine -/

/-- Any threads, the calls they make, and the clock. -/
def messageQueue (flag : IpcFlag) (priority : Thread → ℕ) (maxMsgs msgSize : ℕ) :
    Machine (RtMessagequeue Thread maxMsgs msgSize) (MqEvent Thread) MqOutput where
  step s
    | .send t buffer timeout =>
        match s.progress t with
        | .outside =>
            if buffer = [] then none
            else if msgSize < buffer.length then some (s, .failed .error)
            else some (s.sendWait flag priority t buffer timeout)
        | _ => none
    | .urgent t buffer =>
        match s.progress t with
        | .outside =>
            if buffer = [] then none
            else if msgSize < buffer.length then some (s, .failed .error)
            else some (s.urgentTake t buffer)
        | _ => none
    | .fill t =>
        match s.progress t with
        | .taken place buffer msg => some (s.fillMsg t place buffer msg, .nothing)
        | _ => none
    | .link t =>
        match s.progress t with
        | .filled place buffer msg =>
            some (((s.linkMsg place msg).setProgress t .outside).resumeReceiver, .sent buffer)
        | _ => none
    | .recv t size timeout =>
        match s.progress t with
        | .outside => if size = 0 then none else s.recvWait flag priority t size timeout
        | _ => none
    | .copy t =>
        match s.progress t with
        | .unlinked size msg =>
            some (s.setProgress t (.copied ((s.data msg).read 0 (min size msgSize)) msg), .nothing)
        | _ => none
    | .release t =>
        match s.progress t with
        | .copied bytes msg =>
            some (((s.freeMsg msg).setProgress t .outside).resumeSender, .received bytes)
        | _ => none
    | .runs t elapsed =>
        match s.progress t with
        | .sends buffer timeout (.ready .ok) =>
            some (s.sendWait flag priority t buffer (remaining timeout elapsed))
        | .receives size timeout (.ready .ok) =>
            s.recvWait flag priority t size (remaining timeout elapsed)
        | .sends _ _ (.ready err) => some (s.setProgress t .outside, .failed err)
        | .receives _ _ (.ready err) => some (s.setProgress t .outside, .failed err)
        | _ => none
    | .expires t =>
        match s.progress t with
        | .sends _ timeout .suspended =>
            if 0 < timeout then
              some ({ s with
                suspendSenderThread := s.suspendSenderThread.erase t
                progress := rtThreadResume s.progress .timeout t }, .nothing)
            else none
        | .receives _ timeout .suspended =>
            if 0 < timeout then
              some ({ s with
                suspendThread := s.suspendThread.erase t
                progress := rtThreadResume s.progress .timeout t }, .nothing)
            else none
        | _ => none
    | .reset => s.rtMqReset.map fun s => (s, .nothing)

abbrev MqTransition (Thread : Type*) (maxMsgs msgSize : ℕ) :=
  Transition (RtMessagequeue Thread maxMsgs msgSize) (MqEvent Thread) MqOutput

end WhaleShark.Kernel

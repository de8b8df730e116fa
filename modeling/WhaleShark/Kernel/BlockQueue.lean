import WhaleShark.Foundations.Ledgers
import WhaleShark.Kernel.MessageQueue

/-!
# What a message queue is for

Without its pointers a message queue is a stack of free blocks and a queue of blocks that were sent
(`blockQueue`). A call takes a free block, fills it, and puts it into the queue, at the back or at
the front; or takes the first block of the queue, copies from it, and frees it.
-/

set_option autoImplicit false

namespace WhaleShark.Kernel

open Foundations

variable {Thread : Type*} [DecidableEq Thread] {msgSize : ℕ}

/-- The free blocks, those that were sent, and the threads. -/
@[ext]
structure BlockQueue (Thread : Type*) (msgSize : ℕ) where
  free : List (Block UInt8 msgSize)
  queue : List (Block UInt8 msgSize)
  suspendThread : List Thread
  suspendSenderThread : List Thread
  progress : Thread → Progress (Block UInt8 msgSize)

namespace BlockQueue

variable (flag : IpcFlag) (priority : Thread → ℕ) (a : BlockQueue Thread msgSize)

def setProgress (t : Thread) (p : Progress (Block UInt8 msgSize)) : BlockQueue Thread msgSize :=
  { a with progress := Function.update a.progress t p }

/-- A sender looks for a free block. -/
def sendWait (t : Thread) (buffer : List UInt8) (timeout : ℤ) :
    BlockQueue Thread msgSize × MqOutput :=
  match a.free with
  | block :: rest => ({ a.setProgress t (.taken .back buffer block) with free := rest }, .nothing)
  | [] =>
      if timeout = 0 then (a.setProgress t .outside, .failed .full)
      else
        ({ a.setProgress t (.sends buffer timeout .suspended) with
          suspendSenderThread := rtIpcListSuspend flag priority a.suspendSenderThread t }, .nothing)

/-- An urgent sender does so, and does not wait. -/
def urgentTake (t : Thread) (buffer : List UInt8) : BlockQueue Thread msgSize × MqOutput :=
  match a.free with
  | block :: rest => ({ a.setProgress t (.taken .front buffer block) with free := rest }, .nothing)
  | [] => (a, .failed .full)

/-- A block goes into the queue. -/
def linkMsg (place : Place) (block : Block UInt8 msgSize) : BlockQueue Thread msgSize :=
  match place with
  | .back => { a with queue := a.queue ++ [block] }
  | .front => { a with queue := block :: a.queue }

def resumeReceiver : BlockQueue Thread msgSize :=
  { a with
    suspendThread := (rtIpcListResume a.suspendThread a.progress).1
    progress := (rtIpcListResume a.suspendThread a.progress).2 }

def resumeSender : BlockQueue Thread msgSize :=
  { a with
    suspendSenderThread := (rtIpcListResume a.suspendSenderThread a.progress).1
    progress := (rtIpcListResume a.suspendSenderThread a.progress).2 }

/-- A receiver looks for a block that was sent. -/
def recvWait (t : Thread) (size : ℕ) (timeout : ℤ) : BlockQueue Thread msgSize × MqOutput :=
  match a.queue with
  | block :: rest => ({ a.setProgress t (.unlinked size block) with queue := rest }, .nothing)
  | [] =>
      if timeout = 0 then (a.setProgress t .outside, .failed .timeout)
      else
        ({ a.setProgress t (.receives size timeout .suspended) with
          suspendThread := rtIpcListSuspend flag priority a.suspendThread t }, .nothing)

/-- All blocks that were sent are free, and all threads that wait are resumed with an error. -/
def rtMqReset : BlockQueue Thread msgSize where
  free := a.queue.reverse ++ a.free
  queue := []
  suspendThread := []
  suspendSenderThread := []
  progress := rtIpcListResumeAll a.suspendSenderThread
    (rtIpcListResumeAll a.suspendThread a.progress)

end BlockQueue

/-- The same calls of the same threads. -/
def blockQueue (flag : IpcFlag) (priority : Thread → ℕ) (msgSize : ℕ) :
    Machine (BlockQueue Thread msgSize) (MqEvent Thread) MqOutput where
  step a
    | .send t buffer timeout =>
        match a.progress t with
        | .outside =>
            if buffer = [] then none
            else if msgSize < buffer.length then some (a, .failed .error)
            else some (a.sendWait flag priority t buffer timeout)
        | _ => none
    | .urgent t buffer =>
        match a.progress t with
        | .outside =>
            if buffer = [] then none
            else if msgSize < buffer.length then some (a, .failed .error)
            else some (a.urgentTake t buffer)
        | _ => none
    | .fill t =>
        match a.progress t with
        | .taken place buffer block =>
            some (a.setProgress t (.filled place buffer (block.write 0 buffer)), .nothing)
        | _ => none
    | .link t =>
        match a.progress t with
        | .filled place buffer block =>
            some (((a.linkMsg place block).setProgress t .outside).resumeReceiver, .sent buffer)
        | _ => none
    | .recv t size timeout =>
        match a.progress t with
        | .outside => if size = 0 then none else some (a.recvWait flag priority t size timeout)
        | _ => none
    | .copy t =>
        match a.progress t with
        | .unlinked size block =>
            some (a.setProgress t (.copied (block.read 0 (min size msgSize)) block), .nothing)
        | _ => none
    | .release t =>
        match a.progress t with
        | .copied bytes block =>
            some ((({ a with free := block :: a.free }).setProgress t .outside).resumeSender,
              .received bytes)
        | _ => none
    | .runs t elapsed =>
        match a.progress t with
        | .sends buffer timeout (.ready .ok) =>
            some (a.sendWait flag priority t buffer (remaining timeout elapsed))
        | .receives size timeout (.ready .ok) =>
            some (a.recvWait flag priority t size (remaining timeout elapsed))
        | .sends _ _ (.ready err) => some (a.setProgress t .outside, .failed err)
        | .receives _ _ (.ready err) => some (a.setProgress t .outside, .failed err)
        | _ => none
    | .expires t =>
        match a.progress t with
        | .sends _ timeout .suspended =>
            if 0 < timeout then
              some ({ a with
                suspendSenderThread := a.suspendSenderThread.erase t
                progress := rtThreadResume a.progress .timeout t }, .nothing)
            else none
        | .receives _ timeout .suspended =>
            if 0 < timeout then
              some ({ a with
                suspendThread := a.suspendThread.erase t
                progress := rtThreadResume a.progress .timeout t }, .nothing)
            else none
        | _ => none
    | .reset => some (a.rtMqReset, .nothing)

abbrev BlockTransition (Thread : Type*) (msgSize : ℕ) :=
  Transition (BlockQueue Thread msgSize) (MqEvent Thread) MqOutput

/-! ## What a step of the queue of blocks can do -/

namespace BlockQueue

/-- The event makes the thread look for a free block, to send this at that place. -/
inductive SeeksBlock (a : BlockQueue Thread msgSize) (t : Thread) (buffer : List UInt8) :
    MqEvent Thread → Place → Prop where
  | send {timeout : ℤ} (outside : a.progress t = .outside) (fits : buffer.length ≤ msgSize) :
      SeeksBlock a t buffer (.send t buffer timeout) .back
  | urgent (outside : a.progress t = .outside) (fits : buffer.length ≤ msgSize) :
      SeeksBlock a t buffer (.urgent t buffer) .front
  | runs {timeout : ℤ} {elapsed : ℕ} (woken : a.progress t = .sends buffer timeout (.ready .ok)) :
      SeeksBlock a t buffer (.runs t elapsed) .back

/-- The event makes the thread look for a message, of which it wants so many bytes. -/
inductive SeeksMessage (a : BlockQueue Thread msgSize) (t : Thread) (size : ℕ) :
    MqEvent Thread → Prop where
  | recv {timeout : ℤ} (outside : a.progress t = .outside) :
      SeeksMessage a t size (.recv t size timeout)
  | runs {timeout : ℤ} {elapsed : ℕ} (woken : a.progress t = .receives size timeout (.ready .ok)) :
      SeeksMessage a t size (.runs t elapsed)

/-- The call of the thread fails: there is no block, or no message, or it was resumed with an error.
-/
inductive GivesUp (a : BlockQueue Thread msgSize) (t : Thread) (e : MqEvent Thread) : Prop where
  | full {buffer : List UInt8} {place : Place} (seeks : a.SeeksBlock t buffer e place)
      (free : a.free = [])
  | empty {size : ℕ} (seeks : a.SeeksMessage t size e) (queue : a.queue = [])
  | sends {buffer : List UInt8} {timeout : ℤ} {err : RtErr} (failed : err ≠ .ok)
      (woken : a.progress t = .sends buffer timeout (.ready err))
  | receives {size : ℕ} {timeout : ℤ} {err : RtErr} (failed : err ≠ .ok)
      (woken : a.progress t = .receives size timeout (.ready err))

end BlockQueue

section Steps

variable (flag : IpcFlag) (priority : Thread → ℕ)

/-- The steps: a call is refused, or takes a block, or waits for one, or gives up; fills its block
and links it; takes a message, or waits for one; copies it and frees the block. The time of a thread
that waits runs out. All is reset. -/
inductive BlockStep (a : BlockQueue Thread msgSize) :
    MqEvent Thread → BlockQueue Thread msgSize → MqOutput → Prop where
  | refuse {e : MqEvent Thread} {err : RtErr} : BlockStep a e a (.failed err)
  | take {e : MqEvent Thread} {t : Thread} {place : Place} {buffer : List UInt8}
      {block : Block UInt8 msgSize} {rest : List (Block UInt8 msgSize)}
      (seeks : a.SeeksBlock t buffer e place) (free : a.free = block :: rest) :
      BlockStep a e { a.setProgress t (.taken place buffer block) with free := rest } .nothing
  | waitBlock {e : MqEvent Thread} {t : Thread} {buffer : List UInt8} {timeout : ℤ}
      (seeks : a.SeeksBlock t buffer e .back) (free : a.free = []) :
      BlockStep a e
        { a.setProgress t (.sends buffer timeout .suspended) with
          suspendSenderThread := rtIpcListSuspend flag priority a.suspendSenderThread t } .nothing
  | giveUp {e : MqEvent Thread} {t : Thread} {err : RtErr} (gives : a.GivesUp t e) :
      BlockStep a e (a.setProgress t .outside) (.failed err)
  | fill {t : Thread} {place : Place} {buffer : List UInt8} {block : Block UInt8 msgSize}
      (has : a.progress t = .taken place buffer block) :
      BlockStep a (.fill t)
        (a.setProgress t (.filled place buffer (block.write 0 buffer))) .nothing
  | link {t : Thread} {place : Place} {buffer : List UInt8} {block : Block UInt8 msgSize}
      (has : a.progress t = .filled place buffer block) :
      BlockStep a (.link t) (((a.linkMsg place block).setProgress t .outside).resumeReceiver)
        (.sent buffer)
  | unlink {e : MqEvent Thread} {t : Thread} {size : ℕ} {block : Block UInt8 msgSize}
      {rest : List (Block UInt8 msgSize)} (seeks : a.SeeksMessage t size e)
      (queue : a.queue = block :: rest) :
      BlockStep a e { a.setProgress t (.unlinked size block) with queue := rest } .nothing
  | waitMessage {e : MqEvent Thread} {t : Thread} {size : ℕ} {timeout : ℤ}
      (seeks : a.SeeksMessage t size e) (queue : a.queue = []) :
      BlockStep a e
        { a.setProgress t (.receives size timeout .suspended) with
          suspendThread := rtIpcListSuspend flag priority a.suspendThread t } .nothing
  | copy {t : Thread} {size : ℕ} {block : Block UInt8 msgSize}
      (has : a.progress t = .unlinked size block) :
      BlockStep a (.copy t)
        (a.setProgress t (.copied (block.read 0 (min size msgSize)) block)) .nothing
  | release {t : Thread} {bytes : List UInt8} {block : Block UInt8 msgSize}
      (has : a.progress t = .copied bytes block) :
      BlockStep a (.release t)
        ((({ a with free := block :: a.free }).setProgress t .outside).resumeSender)
        (.received bytes)
  | senderExpires {t : Thread} {buffer : List UInt8} {timeout : ℤ}
      (waits : a.progress t = .sends buffer timeout .suspended) :
      BlockStep a (.expires t)
        { a with
          suspendSenderThread := a.suspendSenderThread.erase t
          progress := rtThreadResume a.progress .timeout t } .nothing
  | receiverExpires {t : Thread} {size : ℕ} {timeout : ℤ}
      (waits : a.progress t = .receives size timeout .suspended) :
      BlockStep a (.expires t)
        { a with
          suspendThread := a.suspendThread.erase t
          progress := rtThreadResume a.progress .timeout t } .nothing
  | reset : BlockStep a .reset a.rtMqReset .nothing

variable {flag priority} {a a' : BlockQueue Thread msgSize} {e : MqEvent Thread} {o : MqOutput}

theorem step_sendWait {t : Thread} {buffer : List UInt8} {timeout : ℤ}
    (seeks : a.SeeksBlock t buffer e .back) (step : a.sendWait flag priority t buffer timeout = (a', o)) :
    BlockStep flag priority a e a' o := by
  unfold BlockQueue.sendWait at step
  split at step
  · rename_i block rest free
    cases step
    exact .take seeks free
  · rename_i free
    split at step
    · cases step
      exact .giveUp (.full seeks free)
    · cases step
      exact .waitBlock seeks free

theorem step_recvWait {t : Thread} {size : ℕ} {timeout : ℤ} (seeks : a.SeeksMessage t size e)
    (step : a.recvWait flag priority t size timeout = (a', o)) :
    BlockStep flag priority a e a' o := by
  unfold BlockQueue.recvWait at step
  split at step
  · rename_i block rest queue
    cases step
    exact .unlink seeks queue
  · rename_i queue
    split at step
    · cases step
      exact .giveUp (.empty seeks queue)
    · cases step
      exact .waitMessage seeks queue

/-- Every step of the machine is one of these. -/
theorem blockQueue_cases (step : (blockQueue flag priority msgSize).step a e = some (a', o)) :
    BlockStep flag priority a e a' o := by
  cases e with
  | send t buffer timeout =>
      simp only [blockQueue] at step
      cases has : a.progress t with
      | outside =>
          rw [has] at step
          obtain ⟨-, step⟩ := Option.ite_none_left_eq_some.mp step
          split at step
          · cases step
            exact .refuse
          · rename_i fits
            exact step_sendWait (.send has (Nat.le_of_not_lt fits)) (Option.some.inj step)
      | _ => simp [has] at step
  | urgent t buffer =>
      simp only [blockQueue] at step
      cases has : a.progress t with
      | outside =>
          rw [has] at step
          obtain ⟨-, step⟩ := Option.ite_none_left_eq_some.mp step
          split at step
          · cases step
            exact .refuse
          · rename_i fits
            unfold BlockQueue.urgentTake at step
            split at step
            · rename_i block rest free
              cases step
              exact .take (.urgent has (Nat.le_of_not_lt fits)) free
            · cases step
              exact .refuse
      | _ => simp [has] at step
  | fill t =>
      simp only [blockQueue] at step
      cases has : a.progress t with
      | taken place buffer block =>
          rw [has] at step
          cases step
          exact .fill has
      | _ => simp [has] at step
  | link t =>
      simp only [blockQueue] at step
      cases has : a.progress t with
      | filled place buffer block =>
          rw [has] at step
          cases step
          exact .link has
      | _ => simp [has] at step
  | recv t size timeout =>
      simp only [blockQueue] at step
      cases has : a.progress t with
      | outside =>
          rw [has] at step
          obtain ⟨-, step⟩ := Option.ite_none_left_eq_some.mp step
          exact step_recvWait (.recv has) (Option.some.inj step)
      | _ => simp [has] at step
  | copy t =>
      simp only [blockQueue] at step
      cases has : a.progress t with
      | unlinked size block =>
          rw [has] at step
          cases step
          exact .copy has
      | _ => simp [has] at step
  | release t =>
      simp only [blockQueue] at step
      cases has : a.progress t with
      | copied bytes block =>
          rw [has] at step
          cases step
          exact .release has
      | _ => simp [has] at step
  | runs t elapsed =>
      simp only [blockQueue] at step
      split at step
      · rename_i buffer timeout has
        exact step_sendWait (.runs has) (Option.some.inj step)
      · rename_i size timeout has
        exact step_recvWait (.runs has) (Option.some.inj step)
      · rename_i buffer timeout err failed has
        cases step
        exact .giveUp (.sends failed has)
      · rename_i size timeout err failed has
        cases step
        exact .giveUp (.receives failed has)
      · cases step
  | expires t =>
      simp only [blockQueue] at step
      split at step
      · rename_i buffer timeout waits
        obtain ⟨-, step⟩ := Option.ite_none_right_eq_some.mp step
        cases step
        exact .senderExpires waits
      · rename_i size timeout waits
        obtain ⟨-, step⟩ := Option.ite_none_right_eq_some.mp step
        cases step
        exact .receiverExpires waits
      · cases step
  | reset =>
      cases step
      exact .reset

end Steps

end WhaleShark.Kernel

import Mathlib.Data.List.Perm.Basic
import Mathlib.Data.List.Nodup

/-!
# Threads that wait at an object of the kernel

An event or a message queue has a list of the threads that are suspended on it. A thread goes in
at the back, or before the first one that is less urgent, as the flag of the object has it
(`rtIpcListSuspend`); the one at the front is resumed first.
-/

set_option autoImplicit false

namespace WhaleShark.Kernel

/-- The results of the calls: `RT_EOK`, `-RT_ERROR`, `-RT_ETIMEOUT`, `-RT_EFULL`. -/
inductive RtErr where
  | ok
  | error
  | timeout
  | full
  deriving DecidableEq, Repr

/-- `RT_IPC_FLAG_FIFO` and `RT_IPC_FLAG_PRIO` -/
inductive IpcFlag where
  | fifo
  | prio
  deriving DecidableEq, Repr

/-- A thread inside a call that waits: it is suspended, or it was resumed with `thread->error` set
and has yet to run on. -/
inductive Stat where
  | suspended
  | ready (err : RtErr)
  deriving DecidableEq, Repr

variable {Thread : Type*}

/-- Before the first thread of lower priority, which is a greater number, or at the end. -/
def insertByPriority (priority : Thread → ℕ) (thread : Thread) : List Thread → List Thread
  | [] => [thread]
  | sthread :: rest =>
      if priority thread < priority sthread then thread :: sthread :: rest
      else sthread :: insertByPriority priority thread rest

/-- `rt_ipc_list_suspend`: where the thread goes in the list -/
def rtIpcListSuspend (flag : IpcFlag) (priority : Thread → ℕ) (list : List Thread)
    (thread : Thread) : List Thread :=
  match flag with
  | .fifo => list ++ [thread]
  | .prio => insertByPriority priority thread list

theorem insertByPriority_perm (priority : Thread → ℕ) (thread : Thread) (list : List Thread) :
    (insertByPriority priority thread list).Perm (thread :: list) := by
  induction list with
  | nil => exact .refl _
  | cons sthread rest ih =>
      unfold insertByPriority
      split
      · exact .refl _
      · exact (ih.cons sthread).trans (.swap thread sthread rest)

/-- The thread is in the list, beside those that were there. -/
theorem rtIpcListSuspend_perm (flag : IpcFlag) (priority : Thread → ℕ) (list : List Thread)
    (thread : Thread) : (rtIpcListSuspend flag priority list thread).Perm (thread :: list) := by
  cases flag with
  | fifo => exact List.perm_append_singleton thread list
  | prio => exact insertByPriority_perm priority thread list

theorem mem_rtIpcListSuspend {flag : IpcFlag} {priority : Thread → ℕ} {list : List Thread}
    {thread t : Thread} :
    t ∈ rtIpcListSuspend flag priority list thread ↔ t = thread ∨ t ∈ list :=
  (rtIpcListSuspend_perm flag priority list thread).mem_iff.trans List.mem_cons

theorem nodup_rtIpcListSuspend {flag : IpcFlag} {priority : Thread → ℕ} {list : List Thread}
    {thread : Thread} :
    (rtIpcListSuspend flag priority list thread).Nodup ↔ thread ∉ list ∧ list.Nodup :=
  (rtIpcListSuspend_perm flag priority list thread).nodup_iff.trans List.nodup_cons

end WhaleShark.Kernel

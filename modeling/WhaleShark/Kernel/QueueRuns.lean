import Mathlib.Data.List.FinRange
import WhaleShark.Foundations.Totals
import WhaleShark.Kernel.PoolRefinement

/-!
# Messages, cells and threads over whole runs

What a queue of blocks keeps in every step, the pool of linked cells keeps as well. No cell is lost:
those that are free, those with a message and those in the hands of a call are always all of them,
so that a send is refused exactly if none is left (`send_is_refused_iff`). No wake-up is lost: while
a thread waits for a message, there are at most as many messages as threads that were resumed for
one and have yet to run, and so it is with cells (`no_wakeup_is_lost`). And with one thread that
receives, what `rt_mq_recv` returns is what was sent, in that order (`messages_arrive_in_order`).
-/

set_option autoImplicit false

namespace WhaleShark.Kernel

open Foundations

variable {Thread : Type*} [DecidableEq Thread] {maxMsgs msgSize : ℕ}

/-! ## The queue that is created -/

/-- The first cells of the pool, the last one first. -/
def firstCells (maxMsgs n : ℕ) : List (Fin maxMsgs) := ((List.finRange maxMsgs).take n).reverse

theorem firstCells_succ {n : ℕ} (bound : n < maxMsgs) :
    firstCells maxMsgs (n + 1) = ⟨n, bound⟩ :: firstCells maxMsgs n := by
  unfold firstCells
  rw [List.take_succ_eq_append_getElem (by simpa using bound)]
  simp

theorem not_mem_firstCells {n : ℕ} (bound : n < maxMsgs) :
    (⟨n, bound⟩ : Fin maxMsgs) ∉ firstCells maxMsgs n := by
  have distinct : (firstCells maxMsgs (n + 1)).Nodup :=
    List.nodup_reverse.mpr ((List.nodup_finRange maxMsgs).sublist (List.take_sublist _ _))
  rw [firstCells_succ bound] at distinct
  exact (List.nodup_cons.mp distinct).1

theorem chain_linkFree (next : Fin maxMsgs → Option (Fin maxMsgs)) :
    ∀ n ≤ maxMsgs, Chain (RtMessagequeue.linkFree n (next, none)).1
      (RtMessagequeue.linkFree n (next, none)).2 (firstCells maxMsgs n) := by
  intro n
  induction n with
  | zero => exact fun _ => .nil
  | succ n ih =>
      intro bound
      have inside : n < maxMsgs := bound
      have chain := ih (Nat.le_of_lt inside)
      rw [RtMessagequeue.linkFree, dif_pos inside, firstCells_succ inside]
      exact chain.push (not_mem_firstCells inside)

/-- Nothing was sent yet. -/
def BlockQueue.created (free : List (Block UInt8 msgSize)) : BlockQueue Thread msgSize where
  free := free
  queue := []
  suspendThread := []
  suspendSenderThread := []
  progress := fun _ => .outside

omit [DecidableEq Thread] in
/-- The pool that is created holds free blocks only. -/
theorem represents_created (next : Fin maxMsgs → Option (Fin maxMsgs))
    (data : Fin maxMsgs → Block UInt8 msgSize) :
    Represents (RtMessagequeue.rtMqCreate next data : RtMessagequeue Thread maxMsgs msgSize)
      (.created ((firstCells maxMsgs maxMsgs).map data)) := by
  refine ⟨firstCells maxMsgs maxMsgs, [], ⟨chain_linkFree next maxMsgs (Nat.le_refl _), .nil, rfl, rfl,
    ?_, ?_⟩, rfl⟩
  · rw [List.append_nil]
    exact List.nodup_reverse.mpr ((List.nodup_finRange maxMsgs).sublist (List.take_sublist _ _))
  · exact ⟨by simp [RtMessagequeue.rtMqCreate, Progress.msg?],
      by simp [RtMessagequeue.rtMqCreate, Progress.msg?], by simp [RtMessagequeue.rtMqCreate]⟩

/-- **A message queue does what a queue of blocks does.** Step by step each run of the one is a run
of the other, with the same results, and in every state that is reached the blocks are those in the
cells. -/
theorem queue_runs_are_block_runs {flag : IpcFlag} {priority : Thread → ℕ}
    (small : maxMsgs < 2 ^ 16) (next : Fin maxMsgs → Option (Fin maxMsgs))
    (data : Fin maxMsgs → Block UInt8 msgSize) :
    (∀ taken last, (messageQueue flag priority maxMsgs msgSize).Run (.rtMqCreate next data) taken last →
      ∃ taken' last', (blockQueue flag priority msgSize).Run
          (.created ((firstCells maxMsgs maxMsgs).map data)) taken' last' ∧
        List.Forall₂ (Machine.Matches Represents) taken taken') ∧
    ∀ taken' last', (blockQueue flag priority msgSize).Run
        (.created ((firstCells maxMsgs maxMsgs).map data)) taken' last' →
      ∃ taken last, (messageQueue flag priority maxMsgs msgSize).Run (.rtMqCreate next data) taken last ∧
        List.Forall₂ (Machine.Matches Represents) taken taken' := by
  have refines : (messageQueue flag priority maxMsgs msgSize).Refines
      (blockQueue flag priority msgSize) Represents := pool_refines flag priority small
  have start : Represents (.rtMqCreate next data : RtMessagequeue Thread maxMsgs msgSize)
      (.created ((firstCells maxMsgs maxMsgs).map data)) := represents_created next data
  constructor
  · intro taken last run
    obtain ⟨taken', last', run', alike, -⟩ := refines.run run start
    exact ⟨taken', last', run', alike⟩
  · intro taken' last' run'
    obtain ⟨taken, last, run, alike, -⟩ := refines.symm.run run' start
    refine ⟨taken, last, run, alike.flip.imp fun σ τ here => ?_⟩
    exact ⟨here.event.symm, here.output.symm, here.source, here.target⟩

/-- A queue of two cells: a message that is sent last and linked first is received first. -/
theorem queue_runs_are_block_runs_two : ∃ taken last taken' last',
    (messageQueue .fifo (fun _ : Fin 3 => 0) 2 4).Run
      (.rtMqCreate (fun _ => none) fun _ => .fill 4 0) taken last ∧
    (blockQueue .fifo (fun _ : Fin 3 => 0) 4).Run
      (.created ((firstCells 2 2).map fun _ => .fill 4 0)) taken' last' ∧
    List.Forall₂ (Machine.Matches Represents) taken taken' ∧
    taken.map (·.output) = [.nothing, .nothing, .nothing, .sent [6], .nothing, .sent [5],
      .nothing, .nothing, .received [6]] := by
  obtain ⟨taken, last, run, passed⟩ := Machine.exists_run_of_passes
    (messageQueue .fifo (fun _ : Fin 3 => 0) 2 4)
    (.rtMqCreate (fun _ => none) fun _ => .fill 4 0)
    [.send 1 [5] 0, .send 2 [6] 0, .fill 2, .link 2, .fill 1, .link 1,
      .recv 0 1 (-1), .copy 0, .release 0]
    (fun taken _ => decide (taken.map (·.output) = [.nothing, .nothing, .nothing, .sent [6],
      .nothing, .sent [5], .nothing, .nothing, .received [6]])) (by decide +kernel)
  obtain ⟨taken', last', run', alike⟩ :=
    (queue_runs_are_block_runs (by decide) (fun _ => none) fun _ => .fill 4 0).1 taken last run
  exact ⟨taken, last, taken', last', run, run', alike, of_decide_eq_true passed⟩

/-! ## Threads counted -/

section Totals

variable {Msg : Type*} [Fintype Thread] (w : Progress Msg → ℕ)

/-- A thread that is resumed has in its hands what it had. -/
theorem total_resume (progress : Thread → Progress Msg) (err : RtErr) (t : Thread)
    (same : ∀ p, w (p.wake err) = w p) :
    total w (rtThreadResume progress err t) = total w progress :=
  total_update_of_eq w (same (progress t))

theorem total_resumeFirst (list : List Thread) (progress : Thread → Progress Msg)
    (same : ∀ p, w (p.wake .ok) = w p) :
    total w (rtIpcListResume list progress).2 = total w progress := by
  cases list with
  | nil => rfl
  | cons t rest => exact total_resume w progress .ok t same

theorem total_resumeAll (same : ∀ p, w (p.wake .error) = w p) (list : List Thread) :
    ∀ progress : Thread → Progress Msg,
      total w (rtIpcListResumeAll list progress) = total w progress := by
  induction list with
  | nil => exact fun _ => rfl
  | cons t rest ih =>
      intro progress
      exact (ih _).trans (total_resume w progress .error t same)

end Totals

/-! ## No cell is lost -/

/-- Whether a call has a message, or the cell for it, in its hands. -/
def Progress.hands {Msg : Type*} (p : Progress Msg) : ℕ := if p.msg?.isSome then 1 else 0

theorem Progress.hands_wake {Msg : Type*} (err : RtErr) (p : Progress Msg) :
    (p.wake err).hands = p.hands := by
  rw [hands, hands, msg?_wake]

theorem Progress.hands_map {Msg Msg' : Type*} (f : Msg → Msg') (p : Progress Msg) :
    (p.map f).hands = p.hands := by
  cases p <;> rfl

variable [Fintype Thread] {flag : IpcFlag} {priority : Thread → ℕ}
  {a a' : BlockQueue Thread msgSize} {e : MqEvent Thread} {o : MqOutput}

/-- All blocks: the free ones, those that were sent, and those in the hands of calls. -/
def BlockQueue.size (a : BlockQueue Thread msgSize) : ℕ :=
  a.free.length + a.queue.length + total Progress.hands a.progress

section OneThread

omit [DecidableEq Thread] [Fintype Thread]

theorem hands_of_seeksBlock {t : Thread} {buffer : List UInt8} {place : Place}
    (seeks : a.SeeksBlock t buffer e place) : (a.progress t).hands = 0 := by
  cases seeks with
  | send outside => rw [outside]; rfl
  | urgent outside => rw [outside]; rfl
  | runs woken => rw [woken]; rfl

theorem hands_of_seeksMessage {t : Thread} {size : ℕ} (seeks : a.SeeksMessage t size e) :
    (a.progress t).hands = 0 := by
  cases seeks with
  | recv outside => rw [outside]; rfl
  | runs woken => rw [woken]; rfl

theorem hands_of_givesUp {t : Thread} (gives : a.GivesUp t e) : (a.progress t).hands = 0 := by
  cases gives with
  | full seeks => exact hands_of_seeksBlock seeks
  | empty seeks => exact hands_of_seeksMessage seeks
  | sends _ woken => rw [woken]; rfl
  | receives _ woken => rw [woken]; rfl

end OneThread

/-- **One step.** No block is lost, and none comes up. -/
theorem size_of_step (step : BlockStep flag priority a e a' o) : a'.size = a.size := by
  have update (t : Thread) (p : Progress (Block UInt8 msgSize)) :=
    total_update Progress.hands a.progress t p
  cases step with
  | refuse => rfl
  | @take _ t place buffer block rest seeks free =>
      have moved := update t (.taken place buffer block)
      rw [hands_of_seeksBlock seeks] at moved
      simp only [BlockQueue.size, BlockQueue.setProgress, free, List.length_cons] at moved ⊢
      change _ = _ + 1 at moved
      omega
  | @waitBlock _ t buffer timeout seeks free =>
      have moved := update t (.sends buffer timeout .suspended)
      rw [hands_of_seeksBlock seeks] at moved
      simp only [BlockQueue.size, BlockQueue.setProgress] at moved ⊢
      change _ = _ + 0 at moved
      omega
  | @giveUp _ t err gives =>
      have moved := update t .outside
      rw [hands_of_givesUp gives] at moved
      simp only [BlockQueue.size, BlockQueue.setProgress] at moved ⊢
      change _ = _ + 0 at moved
      omega
  | @fill t place buffer block has =>
      have moved := update t (.filled place buffer (block.write 0 buffer))
      rw [has] at moved
      simp only [BlockQueue.size, BlockQueue.setProgress] at moved ⊢
      change _ + 1 = _ + 1 at moved
      omega
  | @link t place buffer block has =>
      have moved := update t .outside
      rw [has] at moved
      simp only [BlockQueue.size, BlockQueue.resumeReceiver,
        total_resumeFirst Progress.hands _ _ (Progress.hands_wake .ok)]
      change _ + 1 = _ + 0 at moved
      cases place <;>
        simp only [BlockQueue.linkMsg, BlockQueue.setProgress, List.length_append,
          List.length_cons, List.length_nil] <;> omega
  | @unlink _ t size block rest seeks queue =>
      have moved := update t (.unlinked size block)
      rw [hands_of_seeksMessage seeks] at moved
      simp only [BlockQueue.size, BlockQueue.setProgress, queue, List.length_cons] at moved ⊢
      change _ = _ + 1 at moved
      omega
  | @waitMessage _ t size timeout seeks queue =>
      have moved := update t (.receives size timeout .suspended)
      rw [hands_of_seeksMessage seeks] at moved
      simp only [BlockQueue.size, BlockQueue.setProgress] at moved ⊢
      change _ = _ + 0 at moved
      omega
  | @copy t size block has =>
      have moved := update t (.copied (block.read 0 (min size msgSize)) block)
      rw [has] at moved
      simp only [BlockQueue.size, BlockQueue.setProgress] at moved ⊢
      change _ + 1 = _ + 1 at moved
      omega
  | @release t bytes block has =>
      have moved := update t .outside
      rw [has] at moved
      simp only [BlockQueue.size, BlockQueue.resumeSender, BlockQueue.setProgress,
        total_resumeFirst Progress.hands _ _ (Progress.hands_wake .ok), List.length_cons]
      change _ + 1 = _ + 0 at moved
      omega
  | senderExpires => 
      simp only [BlockQueue.size, total_resume Progress.hands _ _ _ (Progress.hands_wake .timeout)]
  | receiverExpires =>
      simp only [BlockQueue.size, total_resume Progress.hands _ _ _ (Progress.hands_wake .timeout)]
  | reset =>
      simp only [BlockQueue.size, BlockQueue.rtMqReset,
        total_resumeAll Progress.hands (Progress.hands_wake .error), List.length_append,
        List.length_reverse, List.length_nil]
      omega

/-! ## No wake-up is lost -/

/-- What threads wait for: which threads wait for it, and which were resumed because there is some
and have yet to run. -/
structure Resource (Msg : Type*) where
  waits : Progress Msg → Bool
  woken : Progress Msg → ℕ
  waits_wake : ∀ err p, waits (Progress.wake err p) = false
  woken_wake : ∀ err p, waits p = false → woken (Progress.wake err p) = woken p
  woken_ok : ∀ p, waits p = true → woken p = 0 ∧ woken (Progress.wake .ok p) = 1

/-- `rt_mq_recv` waits for a message. -/
def message (Msg : Type*) : Resource Msg where
  waits
    | .receives _ _ .suspended => true
    | _ => false
  woken
    | .receives _ _ (.ready .ok) => 1
    | _ => 0
  waits_wake err p := by
    cases p with
    | sends buffer timeout stat => cases stat <;> rfl
    | receives size timeout stat => cases stat <;> rfl
    | _ => rfl
  woken_wake err p other := by
    cases p with
    | sends buffer timeout stat => cases stat <;> rfl
    | receives size timeout stat =>
        cases stat with
        | suspended => cases other
        | ready => rfl
    | _ => rfl
  woken_ok p waits := by
    cases p with
    | receives size timeout stat =>
        cases stat with
        | suspended => exact ⟨rfl, rfl⟩
        | ready => cases waits
    | _ => cases waits

/-- `rt_mq_send_wait` waits for a free cell. -/
def cell (Msg : Type*) : Resource Msg where
  waits
    | .sends _ _ .suspended => true
    | _ => false
  woken
    | .sends _ _ (.ready .ok) => 1
    | _ => 0
  waits_wake err p := by
    cases p with
    | sends buffer timeout stat => cases stat <;> rfl
    | receives size timeout stat => cases stat <;> rfl
    | _ => rfl
  woken_wake err p other := by
    cases p with
    | sends buffer timeout stat =>
        cases stat with
        | suspended => cases other
        | ready => rfl
    | receives size timeout stat => cases stat <;> rfl
    | _ => rfl
  woken_ok p waits := by
    cases p with
    | sends buffer timeout stat =>
        cases stat with
        | suspended => exact ⟨rfl, rfl⟩
        | ready => cases waits
    | _ => cases waits

theorem message_map {Msg Msg' : Type*} (f : Msg → Msg') (p : Progress Msg) :
    (message Msg').waits (p.map f) = (message Msg).waits p ∧
      (message Msg').woken (p.map f) = (message Msg).woken p := by
  cases p with
  | receives size timeout stat =>
      rcases stat with _ | err
      · exact ⟨rfl, rfl⟩
      · cases err <;> exact ⟨rfl, rfl⟩
  | _ => exact ⟨rfl, rfl⟩

theorem cell_map {Msg Msg' : Type*} (f : Msg → Msg') (p : Progress Msg) :
    (cell Msg').waits (p.map f) = (cell Msg).waits p ∧
      (cell Msg').woken (p.map f) = (cell Msg).woken p := by
  cases p with
  | sends buffer timeout stat =>
      rcases stat with _ | err
      · exact ⟨rfl, rfl⟩
      · cases err <;> exact ⟨rfl, rfl⟩
  | _ => exact ⟨rfl, rfl⟩

section Supplied

variable {Msg : Type*} {r : Resource Msg} {list : List Thread} {supply supply' : ℕ}
  {progress : Thread → Progress Msg} {t : Thread} {p : Progress Msg}

/-- The threads that wait are those in the list, each once; and while one waits, there is not more
of what it waits for than threads that were resumed for it. -/
structure Supplied (r : Resource Msg) (list : List Thread) (supply : ℕ)
    (progress : Thread → Progress Msg) : Prop where
  once : list.Nodup
  mem_iff : ∀ t, t ∈ list ↔ r.waits (progress t) = true
  enough : list ≠ [] → supply ≤ total r.woken progress

/-- A thread goes on that does not wait, and takes what it was resumed for, or there is none. -/
theorem Supplied.update (supplied : Supplied r list supply progress)
    (before : r.waits (progress t) = false) (after : r.waits p = false)
    (less : supply' + r.woken (progress t) ≤ supply + r.woken p ∨ supply' = 0) :
    Supplied r list supply' (Function.update progress t p) where
  once := supplied.once
  mem_iff u := by
    by_cases same : u = t
    · rw [same, Function.update_self, supplied.mem_iff, before, after]
    · rw [Function.update_of_ne same, supplied.mem_iff]
  enough someone := by
    have bound := supplied.enough someone
    have moved := total_update r.woken progress t p
    omega

/-- A thread goes on that neither waits nor was resumed. -/
theorem Supplied.goesOn (supplied : Supplied r list supply progress) {p₀ : Progress Msg}
    (has : progress t = p₀) (before : r.waits p₀ = false) (idle : r.woken p₀ = 0)
    (after : r.waits p = false) : Supplied r list supply (Function.update progress t p) :=
  supplied.update (has ▸ before) after (.inl (by rw [has, idle]; omega))

/-- A thread waits, as there is none. -/
theorem Supplied.suspend (supplied : Supplied r list supply progress)
    (before : r.waits (progress t) = false) (after : r.waits p = true) :
    Supplied r (rtIpcListSuspend flag priority list t) 0 (Function.update progress t p) where
  once := nodup_rtIpcListSuspend.mpr ⟨by simp [supplied.mem_iff, before], supplied.once⟩
  mem_iff u := by
    rw [mem_rtIpcListSuspend]
    by_cases same : u = t
    · rw [same, Function.update_self, after]
      simp
    · rw [Function.update_of_ne same, supplied.mem_iff]
      simp [same]
  enough _ := Nat.zero_le _

/-- A thread that waits is resumed. -/
theorem Supplied.resume (supplied : Supplied r list supply progress) (err : RtErr)
    (waits : r.waits (progress t) = true)
    (less : supply' ≤ supply + r.woken ((progress t).wake err)) :
    Supplied r (list.erase t) supply' (rtThreadResume progress err t) where
  once := supplied.once.erase t
  mem_iff u := by
    rw [supplied.once.mem_erase_iff, rtThreadResume]
    by_cases same : u = t
    · rw [same, Function.update_self, r.waits_wake]
      simp
    · rw [Function.update_of_ne same, supplied.mem_iff]
      simp [same]
  enough _ := by
    have bound := supplied.enough (List.ne_nil_of_mem ((supplied.mem_iff t).mpr waits))
    have moved := total_update r.woken progress t ((progress t).wake err)
    have idle := (r.woken_ok _ waits).1
    rw [rtThreadResume]
    omega

/-- A thread is resumed that waits for something else. -/
theorem Supplied.resume_other (supplied : Supplied r list supply progress) {err : RtErr}
    (other : r.waits (progress t) = false) :
    Supplied r list supply (rtThreadResume progress err t) :=
  supplied.update other (r.waits_wake err _) (.inl (by rw [r.woken_wake err _ other]))

/-- There is one more, and the first thread that waits is resumed. -/
theorem Supplied.resumeFirst (supplied : Supplied r list supply progress) :
    Supplied r (rtIpcListResume list progress).1 (supply + 1)
      (rtIpcListResume list progress).2 := by
  cases list with
  | nil => exact ⟨supplied.once, supplied.mem_iff, fun someone => absurd rfl someone⟩
  | cons t rest =>
      have waits := (supplied.mem_iff t).mp List.mem_cons_self
      have resumed := supplied.resume .ok waits
        (Nat.le_of_eq (congrArg (supply + ·) (r.woken_ok _ waits).2.symm))
      rw [List.erase_cons_head] at resumed
      exact resumed

/-- The first thread is resumed that waits for something else. -/
theorem Supplied.resumeFirst_other {others : List Thread}
    (supplied : Supplied r list supply progress)
    (other : ∀ t ∈ others, r.waits (progress t) = false) :
    Supplied r list supply (rtIpcListResume others progress).2 := by
  cases others with
  | nil => exact supplied
  | cons t rest => exact supplied.resume_other (other t List.mem_cons_self)

/-- All threads that wait are resumed. -/
theorem Supplied.resumeAll (list : List Thread) : ∀ {progress : Thread → Progress Msg},
    Supplied r list supply progress →
      Supplied r [] supply' (rtIpcListResumeAll list progress) := by
  induction list with
  | nil =>
      exact fun supplied => ⟨supplied.once, supplied.mem_iff, fun someone => absurd rfl someone⟩
  | cons t rest ih =>
      intro progress supplied
      have resumed := supplied.resume .error ((supplied.mem_iff t).mp List.mem_cons_self)
        (Nat.le_add_right supply _)
      rw [List.erase_cons_head] at resumed
      exact ih resumed

/-- All threads are resumed that wait for something else. -/
theorem Supplied.resumeAll_other (others : List Thread) :
    ∀ {progress : Thread → Progress Msg}, Supplied r list supply progress →
      (∀ t ∈ others, r.waits (progress t) = false) →
        Supplied r list supply (rtIpcListResumeAll others progress) := by
  induction others with
  | nil => exact fun supplied _ => supplied
  | cons t rest ih =>
      intro progress supplied other
      refine ih (supplied.resume_other (other t List.mem_cons_self)) fun u member => ?_
      change r.waits (rtThreadResume progress .error t u) = false
      by_cases same : u = t
      · rw [same, rtThreadResume, Function.update_self, r.waits_wake]
      · rw [rtThreadResume, Function.update_of_ne same]
        exact other u (List.mem_cons_of_mem _ member)

end Supplied

/-- Both lists of threads are right, and nothing waits for what there is. -/
structure Waking (a : BlockQueue Thread msgSize) : Prop where
  messages : Supplied (message _) a.suspendThread a.queue.length a.progress
  cells : Supplied (cell _) a.suspendSenderThread a.free.length a.progress

section OneThread

omit [DecidableEq Thread] [Fintype Thread]

theorem idle_of_seeksBlock {t : Thread} {buffer : List UInt8} {place : Place}
    (seeks : a.SeeksBlock t buffer e place) :
    (message _).waits (a.progress t) = false ∧ (cell _).waits (a.progress t) = false ∧
      (message _).woken (a.progress t) = 0 ∧ (cell _).woken (a.progress t) ≤ 1 := by
  cases seeks with
  | send outside => simp [outside, message, cell]
  | urgent outside => simp [outside, message, cell]
  | runs woken => simp [woken, message, cell]

theorem idle_of_seeksMessage {t : Thread} {size : ℕ} (seeks : a.SeeksMessage t size e) :
    (message _).waits (a.progress t) = false ∧ (cell _).waits (a.progress t) = false ∧
      (message _).woken (a.progress t) ≤ 1 ∧ (cell _).woken (a.progress t) = 0 := by
  cases seeks with
  | recv outside => simp [outside, message, cell]
  | runs woken => simp [woken, message, cell]

/-- A thread that gives up was not resumed for what there is. -/
theorem idle_of_givesUp {t : Thread} (gives : a.GivesUp t e) :
    (message _).waits (a.progress t) = false ∧ (cell _).waits (a.progress t) = false ∧
      ((message _).woken (a.progress t) = 0 ∨ a.queue = []) ∧
      ((cell _).woken (a.progress t) = 0 ∨ a.free = []) := by
  cases gives with
  | full seeks free =>
      obtain ⟨noMessage, noCell, zero, -⟩ := idle_of_seeksBlock seeks
      exact ⟨noMessage, noCell, .inl zero, .inr free⟩
  | empty seeks queue =>
      obtain ⟨noMessage, noCell, -, zero⟩ := idle_of_seeksMessage seeks
      exact ⟨noMessage, noCell, .inr queue, .inl zero⟩
  | @sends _ _ err failed woken => cases err <;> simp_all [message, cell]
  | @receives _ _ err failed woken => cases err <;> simp_all [message, cell]

theorem not_both {Msg : Type*} {p : Progress Msg} (waits : (message _).waits p = true) :
    (cell _).waits p = false := by
  cases p with
  | sends buffer timeout stat => cases waits
  | _ => rfl

theorem not_both' {Msg : Type*} {p : Progress Msg} (waits : (cell _).waits p = true) :
    (message _).waits p = false := by
  cases p with
  | receives size timeout stat => cases waits
  | _ => rfl

end OneThread

/-- **One step.** -/
theorem waking_of_step (waking : Waking a) (step : BlockStep flag priority a e a' o) :
    Waking a' := by
  have notCell : ∀ t ∈ a.suspendThread, (cell _).waits (a.progress t) = false :=
    fun t member => not_both ((waking.messages.mem_iff t).mp member)
  have notMessage : ∀ t ∈ a.suspendSenderThread, (message _).waits (a.progress t) = false :=
    fun t member => not_both' ((waking.cells.mem_iff t).mp member)
  cases step with
  | refuse => exact waking
  | @take _ t place buffer block rest seeks free =>
      obtain ⟨noMessage, noCell, zero, one⟩ := idle_of_seeksBlock seeks
      refine ⟨waking.messages.update noMessage rfl (.inl ?_),
        waking.cells.update noCell rfl (.inl ?_)⟩
      · change a.queue.length + _ ≤ a.queue.length + 0
        omega
      · change rest.length + _ ≤ a.free.length + 0
        rw [free, List.length_cons]
        omega
  | @waitBlock _ t buffer timeout seeks free =>
      obtain ⟨noMessage, noCell, zero, -⟩ := idle_of_seeksBlock seeks
      refine ⟨waking.messages.update noMessage rfl (.inl ?_), ?_⟩
      · change a.queue.length + _ ≤ a.queue.length + 0
        omega
      · have waits : Supplied (cell _) (rtIpcListSuspend flag priority a.suspendSenderThread t) 0
            (Function.update a.progress t (.sends buffer timeout .suspended)) :=
          waking.cells.suspend noCell rfl
        rwa [← List.length_nil, ← free] at waits
  | @giveUp _ t err gives =>
      obtain ⟨noMessage, noCell, messages, cells⟩ := idle_of_givesUp gives
      refine ⟨waking.messages.update noMessage rfl ?_, waking.cells.update noCell rfl ?_⟩
      · rcases messages with zero | none_
        · exact .inl (Nat.le_of_eq (congrArg _ zero))
        · exact .inr (congrArg List.length none_)
      · rcases cells with zero | none_
        · exact .inl (Nat.le_of_eq (congrArg _ zero))
        · exact .inr (congrArg List.length none_)
  | fill has =>
      exact ⟨waking.messages.goesOn has rfl rfl rfl, waking.cells.goesOn has rfl rfl rfl⟩
  | @link t place buffer block has =>
      have messages : Supplied (message _) a.suspendThread a.queue.length
          (Function.update a.progress t .outside) := waking.messages.goesOn has rfl rfl rfl
      have cells : Supplied (cell _) a.suspendSenderThread a.free.length
          (Function.update a.progress t .outside) := waking.cells.goesOn has rfl rfl rfl
      have apart : ∀ u ∈ a.suspendThread,
          (cell _).waits (Function.update a.progress t .outside u) = false :=
        fun u member => not_both ((messages.mem_iff u).mp member)
      have more := messages.resumeFirst
      cases place with
      | back =>
          refine ⟨?_, cells.resumeFirst_other apart⟩
          change Supplied _ _ (a.queue ++ [block]).length _
          rw [List.length_append, List.length_singleton]
          exact more
      | front => exact ⟨more, cells.resumeFirst_other apart⟩
  | @unlink _ t size block rest seeks queue =>
      obtain ⟨noMessage, noCell, one, zero⟩ := idle_of_seeksMessage seeks
      refine ⟨waking.messages.update noMessage rfl (.inl ?_),
        waking.cells.update noCell rfl (.inl ?_)⟩
      · change rest.length + _ ≤ a.queue.length + 0
        rw [queue, List.length_cons]
        omega
      · change a.free.length + _ ≤ a.free.length + 0
        omega
  | @waitMessage _ t size timeout seeks queue =>
      obtain ⟨noMessage, noCell, -, zero⟩ := idle_of_seeksMessage seeks
      refine ⟨?_, waking.cells.update noCell rfl (.inl ?_)⟩
      · have waits : Supplied (message _) (rtIpcListSuspend flag priority a.suspendThread t) 0
            (Function.update a.progress t (.receives size timeout .suspended)) :=
          waking.messages.suspend noMessage rfl
        rwa [← List.length_nil, ← queue] at waits
      · change a.free.length + _ ≤ a.free.length + 0
        omega
  | copy has =>
      exact ⟨waking.messages.goesOn has rfl rfl rfl, waking.cells.goesOn has rfl rfl rfl⟩
  | @release t bytes block has =>
      have messages : Supplied (message _) a.suspendThread a.queue.length
          (Function.update a.progress t .outside) := waking.messages.goesOn has rfl rfl rfl
      have cells : Supplied (cell _) a.suspendSenderThread a.free.length
          (Function.update a.progress t .outside) := waking.cells.goesOn has rfl rfl rfl
      have apart : ∀ u ∈ a.suspendSenderThread,
          (message _).waits (Function.update a.progress t .outside u) = false :=
        fun u member => not_both' ((cells.mem_iff u).mp member)
      exact ⟨messages.resumeFirst_other apart, cells.resumeFirst⟩
  | @senderExpires t buffer timeout waits =>
      have waiting : (cell _).waits (a.progress t) = true := by
        rw [waits]
        rfl
      exact ⟨waking.messages.resume_other (not_both' waiting),
        waking.cells.resume _ waiting (Nat.le_add_right _ _)⟩
  | @receiverExpires t size timeout waits =>
      have waiting : (message _).waits (a.progress t) = true := by
        rw [waits]
        rfl
      exact ⟨waking.messages.resume _ waiting (Nat.le_add_right _ _),
        waking.cells.resume_other (not_both waiting)⟩
  | reset =>
      have messages : Supplied (message _) [] 0 (rtIpcListResumeAll a.suspendThread a.progress) :=
        waking.messages.resumeAll a.suspendThread
      have cells := waking.cells.resumeAll_other a.suspendThread notCell
      refine ⟨messages.resumeAll_other a.suspendSenderThread fun t _ => ?_,
        cells.resumeAll a.suspendSenderThread⟩
      exact Bool.eq_false_iff.mpr fun waits =>
        absurd ((messages.mem_iff t).mpr waits) List.not_mem_nil

/-! ## Whole runs of the pool -/

variable {s last : RtMessagequeue Thread maxMsgs msgSize}
  {taken : List (MqTransition Thread maxMsgs msgSize)}
  {next : Fin maxMsgs → Option (Fin maxMsgs)} {data : Fin maxMsgs → Block UInt8 msgSize}

/-- The cells hold a queue of blocks of which none is lost, and no wake-up is lost. -/
def Sound (s : RtMessagequeue Thread maxMsgs msgSize) : Prop :=
  ∃ a, Represents s a ∧ a.size = maxMsgs ∧ Waking a

omit [DecidableEq Thread] in
theorem waking_created (free : List (Block UInt8 msgSize)) :
    Waking (.created free : BlockQueue Thread msgSize) :=
  ⟨⟨.nil, fun _ => by simp [BlockQueue.created, message], fun someone => absurd rfl someone⟩,
    ⟨.nil, fun _ => by simp [BlockQueue.created, cell], fun someone => absurd rfl someone⟩⟩

omit [DecidableEq Thread] in
theorem size_created (free : List (Block UInt8 msgSize)) :
    (.created free : BlockQueue Thread msgSize).size = free.length := by
  simp [BlockQueue.size, BlockQueue.created, total_const_zero, Progress.hands, Progress.msg?]

/-- Every state of a run is sound. -/
theorem sound_of_run (small : maxMsgs < 2 ^ 16)
    (run : (messageQueue flag priority maxMsgs msgSize).Run (.rtMqCreate next data) taken last) :
    Machine.Throughout (fun _ s => Sound s) taken last := by
  refine run.invariant (fun _ s => Sound s) ?_ ?_
  · refine ⟨_, represents_created next data, ?_, waking_created _⟩
    rw [size_created]
    simp [firstCells]
  · rintro past τ takes ⟨a, related, size, waking⟩
    obtain ⟨a', step, related'⟩ := (pool_refines flag priority small).answer related takes
    have cases_ := blockQueue_cases step
    exact ⟨a', related', (size_of_step cases_).trans size, waking_of_step waking cases_⟩

theorem sound_source (small : maxMsgs < 2 ^ 16)
    (run : (messageQueue flag priority maxMsgs msgSize).Run (.rtMqCreate next data) taken last)
    {τ : MqTransition Thread maxMsgs msgSize} (member : τ ∈ taken) : Sound τ.source := by
  obtain ⟨past, rest, split⟩ := List.append_of_mem member
  exact (sound_of_run small run).2 past τ rest split

omit [DecidableEq Thread] in
theorem total_map (f : Fin maxMsgs → Block UInt8 msgSize) (progress : Thread → Progress (Fin maxMsgs))
    {w : Progress (Fin maxMsgs) → ℕ} {w' : Progress (Block UInt8 msgSize) → ℕ}
    (same : ∀ p, w' (p.map f) = w p) : total w' (Progress.map f ∘ progress) = total w progress :=
  Finset.sum_congr rfl fun t _ => same (progress t)

omit [DecidableEq Thread] in
/-- What a sound state has in its cells: the messages, and nothing free exactly if all cells are
taken. -/
theorem Sound.free_eq_none_iff (sound : Sound s) :
    s.msgQueueFree = none ↔ s.entry + total Progress.hands s.progress = maxMsgs := by
  obtain ⟨_, ⟨freeCells, queueCells, layout, rfl⟩, size, -⟩ := sound
  have start := layout.free.start_eq_head?
  have entry := layout.entry
  simp only [BlockQueue.size, RtMessagequeue.view, List.length_map,
    total_map s.data s.progress (Progress.hands_map s.data)] at size
  rw [start, List.head?_eq_none_iff, ← List.length_eq_zero_iff]
  omega

/-- **A send that does not wait is refused exactly if every cell has a message or is in the hands of
another call.** -/
theorem send_is_refused_iff (small : maxMsgs < 2 ^ 16)
    (run : (messageQueue flag priority maxMsgs msgSize).Run (.rtMqCreate next data) taken last)
    {τ : MqTransition Thread maxMsgs msgSize} (member : τ ∈ taken) {t : Thread}
    {buffer : List UInt8} (call : τ.event = .send t buffer 0 ∨ τ.event = .urgent t buffer)
    (fits : buffer.length ≤ msgSize) :
    τ.output = .failed .full ↔
      τ.source.entry + total Progress.hands τ.source.progress = maxMsgs := by
  rw [← (sound_source small run member).free_eq_none_iff]
  have takes := run.takes τ member
  obtain ⟨s, e, o, s'⟩ := τ
  simp only [Machine.Takes] at takes call ⊢
  rcases call with rfl | rfl
  · simp only [messageQueue] at takes
    cases has : s.progress t with
    | outside =>
        rw [has] at takes
        obtain ⟨-, takes⟩ := Option.ite_none_left_eq_some.mp takes
        rw [if_neg (Nat.not_lt_of_le fits), Option.some.injEq] at takes
        unfold RtMessagequeue.sendWait at takes
        split at takes
        · rename_i free
          cases takes
          simp [free]
        · rename_i free
          cases takes
          simp [free]
    | _ => simp [has] at takes
  · simp only [messageQueue] at takes
    cases has : s.progress t with
    | outside =>
        rw [has] at takes
        obtain ⟨-, takes⟩ := Option.ite_none_left_eq_some.mp takes
        rw [if_neg (Nat.not_lt_of_le fits), Option.some.injEq] at takes
        unfold RtMessagequeue.urgentTake at takes
        split at takes
        · rename_i free
          cases takes
          simp [free]
        · rename_i free
          cases takes
          simp [free]
    | _ => simp [has] at takes

/-- A thread has the only cell in its hands when another one sends. -/
theorem send_is_refused_iff_once : ∃ taken last,
    ∃ τ : MqTransition (Fin 2) 1 4, (messageQueue .fifo (fun _ => 0) 1 4).Run
      (.rtMqCreate (fun _ => none) fun _ => .fill 4 0) taken last ∧ τ ∈ taken ∧
      τ.event = .send 1 [7] 0 ∧ τ.output = .failed .full ∧ τ.source.entry = 0 ∧
      τ.source.entry + total Progress.hands τ.source.progress = 1 := by
  obtain ⟨taken, last, run, passed⟩ := Machine.exists_run_of_passes
    (messageQueue .fifo (fun _ : Fin 2 => 0) 1 4)
    (.rtMqCreate (fun _ => none) fun _ => .fill 4 0) [.send 0 [5] 0, .send 1 [7] 0]
    (fun taken _ => taken.any fun τ => decide
      (τ.event = .send 1 [7] 0 ∧ τ.output = .failed .full ∧ τ.source.entry = 0)) (by decide +kernel)
  obtain ⟨τ, member, found⟩ := List.any_eq_true.mp passed
  obtain ⟨event, output, entry⟩ := of_decide_eq_true found
  exact ⟨taken, last, τ, run, member, event, output, entry,
    (send_is_refused_iff (by decide) run member (.inl event) (by decide)).mp output⟩

/-- **No wake-up is lost.** At every point of a run, while a thread is suspended in `rt_mq_recv`
there are at most as many messages as threads that were resumed for one and have yet to run; and
while one is suspended in `rt_mq_send_wait`, at most so many free cells. -/
theorem no_wakeup_is_lost (small : maxMsgs < 2 ^ 16)
    (run : (messageQueue flag priority maxMsgs msgSize).Run (.rtMqCreate next data) taken last) :
    Machine.Throughout (fun _ s =>
      ((∃ t, (message _).waits (s.progress t) = true) →
        s.entry ≤ total (message _).woken s.progress) ∧
      ((∃ t, (cell _).waits (s.progress t) = true) →
        maxMsgs ≤ s.entry + total Progress.hands s.progress + total (cell _).woken s.progress))
      taken last := by
  have at_ (s : RtMessagequeue Thread maxMsgs msgSize) (sound : Sound s) :
      ((∃ t, (message _).waits (s.progress t) = true) →
        s.entry ≤ total (message _).woken s.progress) ∧
      ((∃ t, (cell _).waits (s.progress t) = true) →
        maxMsgs ≤ s.entry + total Progress.hands s.progress +
          total (cell _).woken s.progress) := by
    obtain ⟨_, ⟨freeCells, queueCells, layout, rfl⟩, size, messages, cells⟩ := sound
    have entry := layout.entry
    simp only [BlockQueue.size, RtMessagequeue.view, List.length_map,
      total_map s.data s.progress (Progress.hands_map s.data)] at size
    constructor
    · rintro ⟨t, waits⟩
      have listed := (messages.mem_iff t).mpr ((message_map s.data _).1.trans waits)
      have bound := messages.enough (List.ne_nil_of_mem listed)
      simp only [RtMessagequeue.view, List.length_map,
        total_map s.data s.progress fun p => (message_map s.data p).2] at bound
      omega
    · rintro ⟨t, waits⟩
      have listed := (cells.mem_iff t).mpr ((cell_map s.data _).1.trans waits)
      have bound := cells.enough (List.ne_nil_of_mem listed)
      simp only [RtMessagequeue.view, List.length_map,
        total_map s.data s.progress fun p => (cell_map s.data p).2] at bound
      omega
  have all := sound_of_run small run
  exact ⟨at_ last all.1, fun past τ rest split => at_ τ.source (all.2 past τ rest split)⟩

/-- Two threads wait for a message. One is sent, and the first of them was resumed. -/
theorem no_wakeup_is_lost_two : ∃ taken last,
    (messageQueue .fifo (fun _ : Fin 3 => 0) 2 4).Run
      (.rtMqCreate (fun _ => none) fun _ => .fill 4 0) taken last ∧
    (message _).waits (last.progress 1) = true ∧ last.entry = 1 ∧
    last.entry ≤ total (message _).woken last.progress := by
  obtain ⟨taken, last, run, passed⟩ := Machine.exists_run_of_passes
    (messageQueue .fifo (fun _ : Fin 3 => 0) 2 4)
    (.rtMqCreate (fun _ => none) fun _ => .fill 4 0)
    [.recv 0 4 (-1), .recv 1 4 (-1), .send 2 [5] 0, .fill 2, .link 2]
    (fun _ last => (message _).waits (last.progress 1) && decide (last.entry = 1))
    (by decide +kernel)
  obtain ⟨waits, one⟩ := Bool.and_eq_true_iff.mp passed
  exact ⟨taken, last, run, waits, of_decide_eq_true one,
    (no_wakeup_is_lost (by decide) run).1.1 ⟨1, waits⟩⟩

/-! ## Messages arrive in order -/

/-- One thread receives, and nothing is urgent or reset; all messages have the same size. -/
def Orderly (r : Thread) (k : ℕ) : MqEvent Thread → Prop
  | .send _ buffer _ => buffer.length = k
  | .recv t size _ => t = r ∧ size = k
  | .urgent _ _ => False
  | .reset => False
  | _ => True

instance (r : Thread) (k : ℕ) (e : MqEvent Thread) : Decidable (Orderly r k e) := by
  cases e <;> unfold Orderly <;> infer_instance

/-- What a call has that sends and receives in this way. -/
def InOrder (r : Thread) (k : ℕ) (t : Thread) : Progress (Block UInt8 msgSize) → Prop
  | .outside => True
  | .sends buffer _ _ => buffer.length = k ∧ k ≤ msgSize
  | .taken place buffer _ => place = .back ∧ buffer.length = k ∧ k ≤ msgSize
  | .filled place buffer block => place = .back ∧ block.read 0 (min k msgSize) = buffer
  | .receives size _ _ => t = r ∧ size = k
  | .unlinked size _ => t = r ∧ size = k
  | .copied _ _ => t = r

/-- The message in the hands of the thread that receives. -/
def carried (k : ℕ) : Progress (Block UInt8 msgSize) → List (List UInt8)
  | .unlinked _ block => [block.read 0 (min k msgSize)]
  | .copied bytes _ => [bytes]
  | _ => []

/-- The buffer that a call sends which returns `RT_EOK` -/
def sentBy : MqOutput → Option (List UInt8)
  | .sent buffer => some buffer
  | _ => none

/-- What `rt_mq_recv` returns -/
def receivedBy : MqOutput → Option (List UInt8)
  | .received bytes => some bytes
  | _ => none

/-- The messages: calls that send return, and `rt_mq_recv` returns. -/
def mqMessages (r : Thread) (k : ℕ) :
    Machine.Ledger (BlockQueue Thread msgSize) (MqEvent Thread) MqOutput (List UInt8) where
  enters τ := sentBy τ.output
  leaves τ := receivedBy τ.output
  inside a := carried k (a.progress r) ++ a.queue.map fun block => block.read 0 (min k msgSize)

omit [Fintype Thread]

/-- A thread goes on, and the others are where they were. -/
theorem inOrder_update {r : Thread} {k : ℕ} {progress : Thread → Progress (Block UInt8 msgSize)}
    (inOrder : ∀ t, InOrder r k t (progress t)) {t : Thread} {p : Progress (Block UInt8 msgSize)}
    (here : InOrder r k t p) : ∀ u, InOrder r k u (Function.update progress t p u) := by
  intro u
  by_cases same : u = t
  · rw [same, Function.update_self]
    exact here
  · rw [Function.update_of_ne same]
    exact inOrder u

omit [DecidableEq Thread] in
theorem inOrder_wake {r : Thread} {k : ℕ} {err : RtErr} {t : Thread}
    {p : Progress (Block UInt8 msgSize)} (inOrder : InOrder r k t p) :
    InOrder r k t (p.wake err) := by
  cases p with
  | sends buffer timeout stat => cases stat <;> exact inOrder
  | receives size timeout stat => cases stat <;> exact inOrder
  | _ => exact inOrder

theorem inOrder_resumeFirst {r : Thread} {k : ℕ} {list : List Thread}
    {progress : Thread → Progress (Block UInt8 msgSize)}
    (inOrder : ∀ t, InOrder r k t (progress t)) :
    ∀ t, InOrder r k t ((rtIpcListResume list progress).2 t) := by
  cases list with
  | nil => exact inOrder
  | cons t rest => exact inOrder_update inOrder (inOrder_wake (inOrder t))

/-- A thread goes on that carries what it carried. -/
theorem carried_update {r : Thread} {k : ℕ} {progress : Thread → Progress (Block UInt8 msgSize)}
    {t : Thread} {p : Progress (Block UInt8 msgSize)}
    (same : carried k p = carried k (progress t)) :
    carried k (Function.update progress t p r) = carried k (progress r) := by
  by_cases here : r = t
  · rw [here, Function.update_self, same]
  · rw [Function.update_of_ne here]

theorem carried_wake {k : ℕ} {err : RtErr} (p : Progress (Block UInt8 msgSize)) :
    carried k (p.wake err) = carried k p := by
  cases p with
  | sends buffer timeout stat => cases stat <;> rfl
  | receives size timeout stat => cases stat <;> rfl
  | _ => rfl

theorem carried_resumeFirst {r : Thread} {k : ℕ} {list : List Thread}
    {progress : Thread → Progress (Block UInt8 msgSize)} :
    carried k ((rtIpcListResume list progress).2 r) = carried k (progress r) := by
  cases list with
  | nil => rfl
  | cons t rest => exact carried_update (carried_wake _)

omit [DecidableEq Thread] in
theorem carried_of_seeksBlock {k : ℕ} {t : Thread} {buffer : List UInt8} {place : Place}
    (seeks : a.SeeksBlock t buffer e place) : carried k (a.progress t) = [] := by
  cases seeks with
  | send outside => rw [outside]; rfl
  | urgent outside => rw [outside]; rfl
  | runs woken => rw [woken]; rfl

omit [DecidableEq Thread] in
theorem carried_of_seeksMessage {k : ℕ} {t : Thread} {size : ℕ}
    (seeks : a.SeeksMessage t size e) : carried k (a.progress t) = [] := by
  cases seeks with
  | recv outside => rw [outside]; rfl
  | runs woken => rw [woken]; rfl

omit [DecidableEq Thread] in
theorem carried_of_givesUp {k : ℕ} {t : Thread} (gives : a.GivesUp t e) :
    carried k (a.progress t) = [] := by
  cases gives with
  | full seeks => exact carried_of_seeksBlock seeks
  | empty seeks => exact carried_of_seeksMessage seeks
  | sends _ woken => rw [woken]; rfl
  | receives _ woken => rw [woken]; rfl

/-- **One step.** A call sends what it was given, and receives the message that has waited longest.
-/
theorem orderly_step {r : Thread} {k : ℕ} (step : BlockStep flag priority a e a' o)
    (orderly : Orderly r k e) (inOrder : ∀ t, InOrder r k t (a.progress t)) :
    (mqMessages r k).Balanced ⟨a, e, o, a'⟩ ∧ ∀ t, InOrder r k t (a'.progress t) := by
  have kept (enters : sentBy o = none) (leaves : receivedBy o = none)
      (same : (mqMessages r k).inside a' = (mqMessages r k).inside a) :
      (mqMessages r k).Balanced ⟨a, e, o, a'⟩ :=
    (Machine.Ledger.balanced_of_same (L := mqMessages r k) (τ := ⟨a, e, o, a'⟩) enters leaves).mpr
      same
  cases step with
  | refuse => exact ⟨kept rfl rfl rfl, inOrder⟩
  | @take _ t place buffer block rest seeks free =>
      refine ⟨kept rfl rfl (congrArg (· ++ _) (carried_update (carried_of_seeksBlock seeks).symm)),
        inOrder_update inOrder ?_⟩
      cases seeks with
      | send outside fits => exact ⟨rfl, orderly, orderly ▸ fits⟩
      | urgent => exact orderly.elim
      | runs woken =>
          have arguments := inOrder t
          rw [woken] at arguments
          exact ⟨rfl, arguments⟩
  | @waitBlock _ t buffer timeout seeks free =>
      refine ⟨kept rfl rfl (congrArg (· ++ _) (carried_update (carried_of_seeksBlock seeks).symm)),
        inOrder_update inOrder ?_⟩
      cases seeks with
      | send outside fits => exact ⟨orderly, orderly ▸ fits⟩
      | runs woken =>
          have arguments := inOrder t
          rw [woken] at arguments
          exact arguments
  | giveUp gives =>
      exact ⟨kept rfl rfl (congrArg (· ++ _) (carried_update (carried_of_givesUp gives).symm)),
        inOrder_update inOrder trivial⟩
  | @fill t place buffer block has =>
      refine ⟨kept rfl rfl (congrArg (· ++ _) (carried_update (by rw [has]; rfl))),
        inOrder_update inOrder ?_⟩
      have arguments := inOrder t
      rw [has] at arguments
      obtain ⟨back, length, fits⟩ := arguments
      refine ⟨back, ?_⟩
      have whole := block.read_write_self 0 buffer (by omega)
      rw [Nat.min_eq_left fits, ← length]
      exact whole
  | @link t place buffer block has =>
      have arguments := inOrder t
      rw [has] at arguments
      obtain ⟨rfl, bytes⟩ := arguments
      refine ⟨(Machine.Ledger.balanced_of_enters (L := mqMessages r k) rfl rfl).mpr ?_,
        inOrder_resumeFirst (inOrder_update inOrder trivial)⟩
      change carried k ((rtIpcListResume a.suspendThread
        (Function.update a.progress t .outside)).2 r) ++ (a.queue ++ [block]).map _ = _
      rw [carried_resumeFirst, carried_update (by rw [has]; rfl), List.map_append,
        ← List.append_assoc, List.map_singleton, bytes]
      rfl
  | @unlink _ t size block rest seeks queue =>
      have here : t = r ∧ size = k := by
        cases seeks with
        | recv => exact orderly
        | runs woken =>
            have arguments := inOrder t
            rw [woken] at arguments
            exact arguments
      refine ⟨kept rfl rfl ?_, inOrder_update inOrder here⟩
      obtain ⟨rfl, rfl⟩ := here
      change carried size (Function.update a.progress t _ t) ++ rest.map _ =
        carried size (a.progress t) ++ a.queue.map _
      rw [Function.update_self, carried_of_seeksMessage seeks, queue]
      rfl
  | @waitMessage _ t size timeout seeks queue =>
      refine ⟨kept rfl rfl (congrArg (· ++ _) (carried_update (carried_of_seeksMessage seeks).symm)),
        inOrder_update inOrder ?_⟩
      cases seeks with
      | recv => exact orderly
      | runs woken =>
          have arguments := inOrder t
          rw [woken] at arguments
          exact arguments
  | @copy t size block has =>
      have arguments := inOrder t
      rw [has] at arguments
      obtain ⟨rfl, rfl⟩ := arguments
      exact ⟨kept rfl rfl (congrArg (· ++ _) (carried_update (by rw [has]; rfl))),
        inOrder_update inOrder rfl⟩
  | @release t bytes block has =>
      have arguments := inOrder t
      rw [has] at arguments
      obtain rfl := arguments
      refine ⟨(Machine.Ledger.balanced_of_leaves (L := mqMessages t k) rfl rfl).mpr ?_,
        inOrder_resumeFirst (inOrder_update inOrder trivial)⟩
      change carried k (a.progress t) ++ _ = bytes :: (carried k ((rtIpcListResume
        a.suspendSenderThread (Function.update a.progress t .outside)).2 t) ++ _)
      rw [carried_resumeFirst, Function.update_self, has]
      rfl
  | @senderExpires t =>
      exact ⟨kept rfl rfl (congrArg (· ++ _) (carried_update (carried_wake _))),
        inOrder_update inOrder (inOrder_wake (inOrder t))⟩
  | @receiverExpires t =>
      exact ⟨kept rfl rfl (congrArg (· ++ _) (carried_update (carried_wake _))),
        inOrder_update inOrder (inOrder_wake (inOrder t))⟩
  | reset => exact orderly.elim

/-- Whether a call has a message that `rt_mq_recv` is to return. -/
def Progress.carries {Msg : Type*} : Progress Msg → ℕ
  | .unlinked _ _ => 1
  | .copied _ _ => 1
  | _ => 0

theorem length_carried (k : ℕ) (f : Fin maxMsgs → Block UInt8 msgSize)
    (p : Progress (Fin maxMsgs)) : (carried k (p.map f)).length = p.carries := by
  cases p <;> rfl

/-- **Messages arrive in order.** With one thread that receives, what was sent is what `rt_mq_recv`
has returned, in that order, followed by what is in the queue or in the hands of that thread. -/
theorem messages_arrive_in_order (small : maxMsgs < 2 ^ 16) {r : Thread} {k : ℕ}
    (run : (messageQueue flag priority maxMsgs msgSize).Run (.rtMqCreate next data) taken last)
    (orderly : ∀ τ ∈ taken, Orderly r k τ.event) :
    ∃ waiting : List (List UInt8), taken.filterMap (fun τ => sentBy τ.output) =
        taken.filterMap (fun τ => receivedBy τ.output) ++ waiting ∧
      waiting.length = last.entry + (last.progress r).carries := by
  obtain ⟨taken', last', run', alike, related⟩ :=
    (pool_refines flag priority small).run run (represents_created next data)
  have exact_ := run'.history
    (fun past a => (mqMessages r k).Exact past a ∧ ∀ t, InOrder r k t (a.progress t))
    ⟨rfl, fun _ => trivial⟩
    (fun past σ takes (orderly : Orderly r k σ.event) before =>
      have step := orderly_step (blockQueue_cases takes) orderly before.2
      ⟨(Machine.Ledger.exact_snoc before.1).mpr step.1, step.2⟩)
    (Machine.forall_of_matches (fun e _ => Orderly r k e) alike orderly)
  obtain ⟨freeCells, queueCells, layout, rfl⟩ := related
  have sent := Machine.filterMap_eq_of_matches alike fun _ o => sentBy o
  have received := Machine.filterMap_eq_of_matches alike fun _ o => receivedBy o
  refine ⟨(mqMessages r k).inside (last.view freeCells queueCells),
    sent.trans (exact_.1.1.trans (congrArg (· ++ _) received.symm)), ?_⟩
  change (carried k ((last.progress r).map last.data) ++ (queueCells.map last.data).map _).length = _
  rw [List.length_append, length_carried, List.length_map, List.length_map, layout.entry,
    Nat.add_comm]

/-- Two threads send at the same time; the one that began first is the second one to be received. -/
theorem messages_arrive_in_order_two : ∃ taken last,
    (messageQueue .fifo (fun _ : Fin 3 => 0) 2 4).Run
      (.rtMqCreate (fun _ => none) fun _ => .fill 4 0) taken last ∧
    taken.filterMap (fun τ => receivedBy τ.output) = [[6], [5]] ∧
    ∃ waiting : List (List UInt8), taken.filterMap (fun τ => sentBy τ.output) =
        taken.filterMap (fun τ => receivedBy τ.output) ++ waiting ∧
      waiting.length = last.entry + (last.progress 0).carries := by
  obtain ⟨taken, last, run, passed⟩ := Machine.exists_run_of_passes
    (messageQueue .fifo (fun _ : Fin 3 => 0) 2 4)
    (.rtMqCreate (fun _ => none) fun _ => .fill 4 0)
    [.send 1 [5] 0, .send 2 [6] 0, .fill 2, .link 2, .fill 1, .link 1,
      .recv 0 1 (-1), .copy 0, .release 0, .recv 0 1 (-1), .copy 0, .release 0]
    (fun taken _ => decide (taken.filterMap (fun τ => receivedBy τ.output) = [[6], [5]] ∧
      ∀ τ ∈ taken, Orderly 0 1 τ.event)) (by decide +kernel)
  obtain ⟨received, orderly⟩ := of_decide_eq_true passed
  exact ⟨taken, last, run, received, messages_arrive_in_order (by decide) run orderly⟩

end WhaleShark.Kernel

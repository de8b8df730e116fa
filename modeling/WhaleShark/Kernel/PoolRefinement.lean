import Mathlib.Data.Fintype.Card
import WhaleShark.Foundations.Chains
import WhaleShark.Foundations.Simulations
import WhaleShark.Kernel.BlockQueue

/-!
# The pool of linked cells holds a queue of blocks

In every state that is reached the free cells are a chain from `msg_queue_free`, the messages a
chain from `msg_queue_head` to `msg_queue_tail`, `entry` is the length of the latter, and no cell is
in both or in the hands of a call as well, nor in those of two calls (`Layout`). Each step keeps to
this, and does to the blocks in the cells what the step of `blockQueue` does (`pool_refines`).
-/

set_option autoImplicit false

namespace WhaleShark.Kernel

open Foundations

variable {Thread : Type*} {maxMsgs msgSize : ℕ}

/-! ## What a call has in its hands -/

namespace Progress

variable {Msg Msg' : Type*}

/-- The message that a call has, or the cell for it. -/
def msg? : Progress Msg → Option Msg
  | .taken _ _ msg => some msg
  | .filled _ _ msg => some msg
  | .unlinked _ msg => some msg
  | .copied _ msg => some msg
  | _ => none

def map (f : Msg → Msg') : Progress Msg → Progress Msg'
  | .outside => .outside
  | .sends buffer timeout stat => .sends buffer timeout stat
  | .taken place buffer msg => .taken place buffer (f msg)
  | .filled place buffer msg => .filled place buffer (f msg)
  | .receives size timeout stat => .receives size timeout stat
  | .unlinked size msg => .unlinked size (f msg)
  | .copied bytes msg => .copied bytes (f msg)

theorem map_congr {f g : Msg → Msg'} (p : Progress Msg) (same : ∀ c, p.msg? = some c → f c = g c) :
    p.map f = p.map g := by
  cases p with
  | taken place buffer msg => simp only [map, same msg rfl]
  | filled place buffer msg => simp only [map, same msg rfl]
  | unlinked size msg => simp only [map, same msg rfl]
  | copied bytes msg => simp only [map, same msg rfl]
  | _ => rfl

@[simp] theorem msg?_wake (err : RtErr) (p : Progress Msg) : (p.wake err).msg? = p.msg? := by
  cases p with
  | sends buffer timeout stat => cases stat <;> rfl
  | receives size timeout stat => cases stat <;> rfl
  | _ => rfl

theorem wake_eq_filled {err : RtErr} {p : Progress Msg} {place : Place} {buffer : List UInt8}
    {msg : Msg} : p.wake err = .filled place buffer msg ↔ p = .filled place buffer msg := by
  cases p with
  | sends buffer timeout stat => cases stat <;> simp [wake]
  | receives size timeout stat => cases stat <;> simp [wake]
  | _ => simp [wake]

theorem map_wake (f : Msg → Msg') (err : RtErr) (p : Progress Msg) :
    (p.wake err).map f = (p.map f).wake err := by
  cases p with
  | sends buffer timeout stat => cases stat <;> rfl
  | receives size timeout stat => cases stat <;> rfl
  | _ => rfl

end Progress

/-- The calls have each its own cell, which is none of these, and the cell of a message that goes to
the back points nowhere. -/
structure Held (next : Fin maxMsgs → Option (Fin maxMsgs))
    (progress : Thread → Progress (Fin maxMsgs)) (cells : List (Fin maxMsgs)) : Prop where
  apart : ∀ t c, (progress t).msg? = some c → c ∉ cells
  exclusive : ∀ t u c, (progress t).msg? = some c → (progress u).msg? = some c → t = u
  ended : ∀ t buffer c, progress t = .filled .back buffer c → next c = none

/-- Where the cells are: in the chain of the free ones, in that of the messages, or with a call. -/
structure Layout (s : RtMessagequeue Thread maxMsgs msgSize)
    (freeCells queueCells : List (Fin maxMsgs)) : Prop where
  free : Chain s.next s.msgQueueFree freeCells
  queue : Chain s.next s.msgQueueHead queueCells
  tail : s.msgQueueTail = queueCells.getLast?
  entry : s.entry = queueCells.length
  distinct : (freeCells ++ queueCells).Nodup
  held : Held s.next s.progress (freeCells ++ queueCells)

/-- The blocks in the cells. -/
def RtMessagequeue.view (s : RtMessagequeue Thread maxMsgs msgSize)
    (freeCells queueCells : List (Fin maxMsgs)) : BlockQueue Thread msgSize where
  free := freeCells.map s.data
  queue := queueCells.map s.data
  suspendThread := s.suspendThread
  suspendSenderThread := s.suspendSenderThread
  progress := Progress.map s.data ∘ s.progress

/-- The pool holds these blocks. -/
def Represents (s : RtMessagequeue Thread maxMsgs msgSize) (a : BlockQueue Thread msgSize) : Prop :=
  ∃ freeCells queueCells, Layout s freeCells queueCells ∧ a = s.view freeCells queueCells

section Steps

variable [DecidableEq Thread] {s : RtMessagequeue Thread maxMsgs msgSize}
  {freeCells queueCells : List (Fin maxMsgs)} {next next' : Fin maxMsgs → Option (Fin maxMsgs)}
  {progress : Thread → Progress (Fin maxMsgs)} {cells cells' : List (Fin maxMsgs)}

/-! ## A thread goes on -/

/-- A thread takes a cell that no other call has, or none, and the others keep theirs. -/
theorem Held.update (held : Held next progress cells) (t : Thread) (p : Progress (Fin maxMsgs))
    (own : ∀ c, p.msg? = some c → c ∉ cells' ∧ ∀ u ≠ t, (progress u).msg? ≠ some c)
    (end_ : ∀ buffer c, p = .filled .back buffer c → next' c = none)
    (others : ∀ u ≠ t, ∀ c, (progress u).msg? = some c → c ∉ cells' ∧ next' c = next c) :
    Held next' (Function.update progress t p) cells' where
  apart u c has := by
    by_cases same : u = t
    · subst same
      rw [Function.update_self] at has
      exact (own c has).1
    · rw [Function.update_of_ne same] at has
      exact (others u same c has).1
  exclusive u v c left right := by
    by_cases first : u = t
    · by_cases second : v = t
      · rw [first, second]
      · rw [first, Function.update_self] at left
        rw [Function.update_of_ne second] at right
        exact absurd right ((own c left).2 v second)
    · by_cases second : v = t
      · rw [second, Function.update_self] at right
        rw [Function.update_of_ne first] at left
        exact absurd left ((own c right).2 u first)
      · rw [Function.update_of_ne first] at left
        rw [Function.update_of_ne second] at right
        exact held.exclusive u v c left right
  ended u buffer c filled := by
    by_cases same : u = t
    · subst same
      rw [Function.update_self] at filled
      exact end_ buffer c filled
    · rw [Function.update_of_ne same] at filled
      have has : (progress u).msg? = some c := congrArg Progress.msg? filled
      rw [(others u same c has).2]
      exact held.ended u buffer c filled

/-- A thread that has no cell then. -/
theorem Held.idle (held : Held next progress cells) (t : Thread) {p : Progress (Fin maxMsgs)}
    (none_ : p.msg? = none) : Held next (Function.update progress t p) cells := by
  refine held.update t p (by simp [none_]) ?_ fun u _ c has => ⟨held.apart u c has, rfl⟩
  rintro buffer c rfl
  cases none_

theorem Held.resume (held : Held next progress cells) (err : RtErr) (t : Thread) :
    Held next (rtThreadResume progress err t) cells := by
  refine held.update t _ ?_ ?_ fun u _ c has => ⟨held.apart u c has, rfl⟩
  · intro c has
    rw [Progress.msg?_wake] at has
    exact ⟨held.apart t c has, fun u other also => other (held.exclusive u t c also has)⟩
  · intro buffer c filled
    exact held.ended t buffer c (Progress.wake_eq_filled.mp filled)

theorem Held.resumeFirst (held : Held next progress cells) (list : List Thread) :
    Held next (rtIpcListResume list progress).2 cells := by
  cases list with
  | nil => exact held
  | cons t rest => exact held.resume .ok t

theorem Held.resumeAll (list : List Thread) : ∀ {progress : Thread → Progress (Fin maxMsgs)},
    Held next progress cells → Held next (rtIpcListResumeAll list progress) cells := by
  induction list with
  | nil => exact fun held => held
  | cons t rest ih => exact fun held => ih (held.resume .error t)

/-! ## The blocks of the threads -/

variable {Msg Msg' : Type*} (f : Msg → Msg')

theorem update_map_comp (progress : Thread → Progress Msg) (t : Thread) (p : Progress Msg) :
    Function.update (Progress.map f ∘ progress) t (p.map f) =
      Progress.map f ∘ Function.update progress t p :=
  (Function.comp_update _ _ _ _).symm

theorem map_comp_resume (progress : Thread → Progress Msg) (err : RtErr) (t : Thread) :
    Progress.map f ∘ rtThreadResume progress err t =
      rtThreadResume (Progress.map f ∘ progress) err t := by
  rw [rtThreadResume, rtThreadResume, Function.comp_update, Progress.map_wake]
  rfl

theorem map_comp_resumeFirst (progress : Thread → Progress Msg) (list : List Thread) :
    rtIpcListResume list (Progress.map f ∘ progress) =
      ((rtIpcListResume list progress).1, Progress.map f ∘ (rtIpcListResume list progress).2) := by
  cases list with
  | nil => rfl
  | cons t rest => rw [rtIpcListResume, rtIpcListResume, map_comp_resume]

theorem map_comp_resumeAll (list : List Thread) : ∀ progress : Thread → Progress Msg,
    rtIpcListResumeAll list (Progress.map f ∘ progress) =
      Progress.map f ∘ rtIpcListResumeAll list progress := by
  induction list with
  | nil => exact fun _ => rfl
  | cons t rest ih =>
      intro progress
      change rtIpcListResumeAll rest (rtThreadResume (Progress.map f ∘ progress) .error t) =
        Progress.map f ∘ rtIpcListResumeAll rest (rtThreadResume progress .error t)
      rw [← map_comp_resume, ih]

/-! ## One part of a call -/

variable {flag : IpcFlag} {priority : Thread → ℕ} {t : Thread} {buffer : List UInt8}
  {timeout : ℤ} {size : ℕ} {c : Fin maxMsgs} {rest : List (Fin maxMsgs)}

/-- The same output, and the pool holds the blocks. -/
def Agree (x : RtMessagequeue Thread maxMsgs msgSize × MqOutput)
    (y : BlockQueue Thread msgSize × MqOutput) : Prop :=
  x.2 = y.2 ∧ Represents x.1 y.1

theorem Layout.idle (layout : Layout s freeCells queueCells) (t : Thread)
    {p : Progress (Fin maxMsgs)} (none_ : p.msg? = none) :
    Layout (s.setProgress t p) freeCells queueCells :=
  { layout with held := layout.held.idle t none_ }

/-- A free cell is taken. -/
theorem Layout.take (layout : Layout s (c :: rest) queueCells) (t : Thread) (place : Place)
    (buffer : List UInt8) :
    Layout { s.setProgress t (.taken place buffer c) with msgQueueFree := s.next c } rest
      queueCells := by
  obtain ⟨_, same, chain⟩ := (layout.free.start_eq_head? ▸ layout.free).uncons
  cases same
  obtain ⟨fresh, distinct⟩ := List.nodup_cons.mp layout.distinct
  refine { layout with free := chain, distinct := distinct, held := ?_ }
  refine layout.held.update t _ ?_ (by simp) fun u _ d has =>
    ⟨fun inside => layout.held.apart u d has (List.mem_cons_of_mem _ inside), rfl⟩
  rintro d ⟨⟩
  exact ⟨fresh, fun u _ has => layout.held.apart u c has List.mem_cons_self⟩

theorem agree_sendWait (layout : Layout s freeCells queueCells) :
    Agree (s.sendWait flag priority t buffer timeout)
      ((s.view freeCells queueCells).sendWait flag priority t buffer timeout) := by
  have start := layout.free.start_eq_head?
  cases freeCells with
  | nil =>
      simp only [RtMessagequeue.sendWait, BlockQueue.sendWait, start, List.head?_nil,
        RtMessagequeue.view, List.map_nil]
      split
      · exact ⟨rfl, [], queueCells, layout.idle t rfl,
          BlockQueue.ext rfl rfl rfl rfl (update_map_comp _ _ t .outside)⟩
      · exact ⟨rfl, [], queueCells, { layout.idle t rfl with },
          BlockQueue.ext rfl rfl rfl rfl
            (update_map_comp _ _ t (.sends buffer timeout .suspended))⟩
  | cons c rest =>
      simp only [RtMessagequeue.sendWait, BlockQueue.sendWait, start, List.head?_cons,
        RtMessagequeue.view, List.map_cons]
      exact ⟨rfl, rest, queueCells, layout.take t .back buffer,
        BlockQueue.ext rfl rfl rfl rfl (update_map_comp _ _ t (.taken .back buffer c))⟩

theorem agree_urgentTake (layout : Layout s freeCells queueCells) :
    Agree (s.urgentTake t buffer) ((s.view freeCells queueCells).urgentTake t buffer) := by
  have start := layout.free.start_eq_head?
  cases freeCells with
  | nil =>
      simp only [RtMessagequeue.urgentTake, BlockQueue.urgentTake, start, List.head?_nil,
        RtMessagequeue.view, List.map_nil]
      exact ⟨rfl, [], queueCells, layout, rfl⟩
  | cons c rest =>
      simp only [RtMessagequeue.urgentTake, BlockQueue.urgentTake, start, List.head?_cons,
        RtMessagequeue.view, List.map_cons]
      exact ⟨rfl, rest, queueCells, layout.take t .front buffer,
        BlockQueue.ext rfl rfl rfl rfl (update_map_comp _ _ t (.taken .front buffer c))⟩

/-- A cell is filled. -/
theorem agree_fillMsg {place : Place} (layout : Layout s freeCells queueCells)
    (has : s.progress t = .taken place buffer c) :
    Represents (s.fillMsg t place buffer c) ((s.view freeCells queueCells).setProgress t
      (.filled place buffer ((s.data c).write 0 buffer))) := by
  have mine : (s.progress t).msg? = some c := congrArg Progress.msg? has
  have outside := layout.held.apart t c mine
  have notFree : c ∉ freeCells := fun inside => outside (List.mem_append_left _ inside)
  have notQueued : c ∉ queueCells := fun inside => outside (List.mem_append_right _ inside)
  have others : ∀ u ≠ t, ∀ d, (s.progress u).msg? = some d → d ≠ c := by
    rintro u other d also rfl
    exact other (layout.held.exclusive u t d also mine)
  refine ⟨freeCells, queueCells, ?_, ?_⟩
  · refine
      { layout with
        free := ?_
        queue := ?_
        held := ?_ }
    · cases place with
      | back => exact layout.free.write notFree none
      | front => exact layout.free
    · cases place with
      | back => exact layout.queue.write notQueued none
      | front => exact layout.queue
    · refine layout.held.update t _ ?_ ?_ fun u other d also =>
        ⟨layout.held.apart u d also, ?_⟩
      · rintro d ⟨⟩
        exact ⟨outside, fun u other also => others u other c also rfl⟩
      · rintro buffer d ⟨⟩
        exact Function.update_self ..
      · cases place with
        | back => exact Function.update_of_ne (others u other d also) _ _
        | front => rfl
  · have unchanged : ∀ d ≠ c, Function.update s.data c ((s.data c).write 0 buffer) d = s.data d :=
      fun d ne => Function.update_of_ne ne _ _
    simp only [RtMessagequeue.view, RtMessagequeue.fillMsg, BlockQueue.setProgress,
      RtMessagequeue.setProgress, BlockQueue.mk.injEq, true_and]
    refine ⟨?_, ?_, ?_⟩
    · exact List.map_congr_left fun d inside =>
        (unchanged d (by rintro rfl; exact notFree inside)).symm
    · exact List.map_congr_left fun d inside =>
        (unchanged d (by rintro rfl; exact notQueued inside)).symm
    · rw [Function.comp_update]
      funext u
      by_cases same : u = t
      · subst same
        rw [Function.update_self, Function.update_self, Progress.map, Function.update_self]
      · rw [Function.update_of_ne same, Function.update_of_ne same]
        exact Progress.map_congr _ fun d also => (unchanged d (others u same d also)).symm

/-- A row of distinct cells is not longer than the pool. -/
theorem length_le_of_nodup {cells : List (Fin maxMsgs)} (distinct : cells.Nodup) :
    cells.length ≤ maxMsgs := by
  simpa using distinct.length_le_card

/-- The cell in the hands of a call is linked at the back. -/
theorem Layout.linkBack (layout : Layout s freeCells queueCells) (small : maxMsgs < 2 ^ 16)
    (has : s.progress t = .filled .back buffer c) :
    Layout ((s.linkMsg .back c).setProgress t .outside) freeCells (queueCells ++ [c]) := by
  have mine : (s.progress t).msg? = some c := congrArg Progress.msg? has
  have outside := layout.held.apart t c mine
  have notQueued : c ∉ queueCells := fun inside => outside (List.mem_append_right _ inside)
  have end_ := layout.held.ended t buffer c has
  have distinct : (freeCells ++ (queueCells ++ [c])).Nodup := by
    rw [← List.append_assoc]
    exact List.nodup_append.mpr ⟨layout.distinct, List.nodup_singleton c, by
      rintro d inside e single rfl
      rw [List.mem_singleton.mp single] at inside
      exact outside inside⟩
  have short := length_le_of_nodup distinct
  have entry : (s.entry + 1) % 2 ^ 16 = (queueCells ++ [c]).length := by
    rw [layout.entry, Nat.mod_eq_of_lt (by simp at short; omega), List.length_append,
      List.length_singleton]
  have start := layout.queue.start_eq_head?
  have kept : ∀ u ≠ t, ∀ d, (s.progress u).msg? = some d → d ∉ freeCells ++ (queueCells ++ [c]) := by
    intro u other d also inside
    rw [← List.append_assoc] at inside
    rcases List.mem_append.mp inside with old | new
    · exact layout.held.apart u d also old
    · rw [List.mem_singleton.mp new] at also
      exact other (layout.held.exclusive u t c also mine)
  cases back : queueCells.getLast? with
  | none =>
      obtain rfl := List.getLast?_eq_none_iff.mp back
      have tail := layout.tail.trans back
      have alone : Chain s.next (s.next c) [] := by
        rw [end_]
        exact .nil
      simp only [RtMessagequeue.linkMsg, RtMessagequeue.setProgress, tail, start, List.head?_nil,
        if_true]
      refine ⟨layout.free, .cons alone, rfl, entry, distinct, ?_⟩
      exact layout.held.update t _ (by simp [Progress.msg?]) (by simp) fun u other d also =>
        ⟨kept u other d also, rfl⟩
  | some last =>
      have tail := layout.tail.trans back
      have queued : last ∈ queueCells := List.mem_of_getLast? back
      have notFree : last ∉ freeCells := fun inside =>
        (List.nodup_append.mp layout.distinct).2.2 last inside last queued rfl
      have head : s.msgQueueHead ≠ none := by
        rw [start]
        cases queueCells with
        | nil => cases queued
        | cons => simp
      simp only [RtMessagequeue.linkMsg, RtMessagequeue.setProgress, tail, if_neg head]
      refine ⟨layout.free.write notFree _, ?_, by simp, entry, distinct, ?_⟩
      · exact layout.queue.append (List.nodup_append.mp layout.distinct).2.1 notQueued end_ back
      · refine layout.held.update t _ (by simp [Progress.msg?]) (by simp) fun u other d also =>
          ⟨kept u other d also, Function.update_of_ne ?_ _ _⟩
        rintro rfl
        exact layout.held.apart u d also (List.mem_append_right _ queued)

/-- It is linked at the front. -/
theorem Layout.linkFront (layout : Layout s freeCells queueCells) (small : maxMsgs < 2 ^ 16)
    (has : s.progress t = .filled .front buffer c) :
    Layout ((s.linkMsg .front c).setProgress t .outside) freeCells (c :: queueCells) := by
  have mine : (s.progress t).msg? = some c := congrArg Progress.msg? has
  have outside := layout.held.apart t c mine
  have notFree : c ∉ freeCells := fun inside => outside (List.mem_append_left _ inside)
  have notQueued : c ∉ queueCells := fun inside => outside (List.mem_append_right _ inside)
  have distinct : (freeCells ++ c :: queueCells).Nodup :=
    List.nodup_middle.mpr (List.nodup_cons.mpr ⟨outside, layout.distinct⟩)
  have short := length_le_of_nodup distinct
  have kept : ∀ u ≠ t, ∀ d, (s.progress u).msg? = some d → d ≠ c := by
    rintro u other d also rfl
    exact other (layout.held.exclusive u t d also mine)
  refine ⟨layout.free.write notFree _, layout.queue.push notQueued, ?_, ?_, distinct, ?_⟩
  · have tail := layout.tail
    cases back : queueCells.getLast? with
    | none =>
        obtain rfl := List.getLast?_eq_none_iff.mp back
        simp [RtMessagequeue.linkMsg, RtMessagequeue.setProgress, tail]
    | some last =>
        simp [RtMessagequeue.linkMsg, RtMessagequeue.setProgress, tail, back,
          List.getLast?_cons]
  · change (s.entry + 1) % 2 ^ 16 = (c :: queueCells).length
    rw [layout.entry, Nat.mod_eq_of_lt (by simp at short; omega), List.length_cons]
  · refine layout.held.update t _ (by simp [Progress.msg?]) (by simp) fun u other d also =>
      ⟨fun inside => ?_, Function.update_of_ne (kept u other d also) _ _⟩
    rcases List.mem_cons.mp (List.perm_middle.mem_iff.mp inside) with same | old
    · exact kept u other d also same
    · exact layout.held.apart u d also old

/-- The cell in the hands of a call is free again. -/
theorem Layout.release {bytes : List UInt8} (layout : Layout s freeCells queueCells)
    (has : s.progress t = .copied bytes c) :
    Layout ((s.freeMsg c).setProgress t .outside) (c :: freeCells) queueCells := by
  have mine : (s.progress t).msg? = some c := congrArg Progress.msg? has
  have outside := layout.held.apart t c mine
  have notFree : c ∉ freeCells := fun inside => outside (List.mem_append_left _ inside)
  have notQueued : c ∉ queueCells := fun inside => outside (List.mem_append_right _ inside)
  have kept : ∀ u ≠ t, ∀ d, (s.progress u).msg? = some d → d ≠ c := by
    rintro u other d also rfl
    exact other (layout.held.exclusive u t d also mine)
  refine ⟨layout.free.push notFree, layout.queue.write notQueued _, layout.tail, layout.entry,
    List.nodup_cons.mpr ⟨outside, layout.distinct⟩, ?_⟩
  refine layout.held.update t _ (by simp [Progress.msg?]) (by simp) fun u other d also =>
    ⟨fun inside => ?_, Function.update_of_ne (kept u other d also) _ _⟩
  rcases List.mem_cons.mp inside with same | old
  · exact kept u other d also same
  · exact layout.held.apart u d also old

/-- The first message goes out. The tail is kept while another message is behind it. -/
theorem tail_behind {tail : Option (Fin maxMsgs)} (distinct : (c :: rest).Nodup)
    (back : tail = (c :: rest).getLast?) :
    (if tail = some c then none else tail) = rest.getLast? := by
  cases last : rest.getLast? with
  | none =>
      obtain rfl := List.getLast?_eq_none_iff.mp last
      simp [back]
  | some d =>
      have other : d ≠ c := by
        rintro rfl
        exact (List.nodup_cons.mp distinct).1 (List.mem_of_getLast? last)
      simp [back, List.getLast?_cons, last, other]

theorem Layout.unlink (layout : Layout s freeCells (c :: rest)) (small : maxMsgs < 2 ^ 16)
    (t : Thread) (size : ℕ) :
    Layout { s.setProgress t (.unlinked size c) with
      msgQueueHead := s.next c
      msgQueueTail := if s.msgQueueTail = some c then none else s.msgQueueTail
      entry := (s.entry + 2 ^ 16 - 1) % 2 ^ 16 } freeCells rest := by
  obtain ⟨_, same, chain⟩ := (layout.queue.start_eq_head? ▸ layout.queue).uncons
  cases same
  obtain ⟨fresh, distinct⟩ := List.nodup_cons.mp (List.nodup_middle.mp layout.distinct)
  have short := length_le_of_nodup layout.distinct
  refine ⟨layout.free, chain, tail_behind (List.nodup_append.mp layout.distinct).2.1 layout.tail,
    ?_, distinct, ?_⟩
  · change (s.entry + 2 ^ 16 - 1) % 2 ^ 16 = rest.length
    simp only [List.length_append, List.length_cons] at short
    rw [layout.entry, List.length_cons]
    omega
  · have older : ∀ d, d ∈ freeCells ++ rest → d ∈ freeCells ++ c :: rest := fun d inside =>
      List.perm_middle.mem_iff.mpr (List.mem_cons_of_mem _ inside)
    refine layout.held.update t _ ?_ (by simp) fun u _ d has =>
      ⟨fun inside => layout.held.apart u d has (older d inside), rfl⟩
    rintro d ⟨⟩
    exact ⟨fresh, fun u _ has => layout.held.apart u c has
      (List.perm_middle.mem_iff.mpr List.mem_cons_self)⟩

theorem agree_recvWait (layout : Layout s freeCells queueCells) (small : maxMsgs < 2 ^ 16) :
    Option.Rel Agree (s.recvWait flag priority t size timeout)
      (some ((s.view freeCells queueCells).recvWait flag priority t size timeout)) := by
  have start := layout.queue.start_eq_head?
  have entry := layout.entry
  cases queueCells with
  | nil =>
      rw [List.length_nil] at entry
      simp only [RtMessagequeue.recvWait, BlockQueue.recvWait, entry, if_true,
        RtMessagequeue.view, List.map_nil]
      split
      · exact .some ⟨rfl, freeCells, [], layout.idle t rfl,
          BlockQueue.ext rfl rfl rfl rfl (update_map_comp _ _ t .outside)⟩
      · exact .some ⟨rfl, freeCells, [], { layout.idle t rfl with },
          BlockQueue.ext rfl rfl rfl rfl
            (update_map_comp _ _ t (.receives size timeout .suspended))⟩
  | cons c rest =>
      have some_ : s.entry ≠ 0 := by simp [entry]
      simp only [RtMessagequeue.recvWait, BlockQueue.recvWait, if_neg some_, start,
        List.head?_cons, RtMessagequeue.view, List.map_cons]
      exact .some ⟨rfl, freeCells, rest, layout.unlink small t size,
        BlockQueue.ext rfl rfl rfl rfl (update_map_comp _ _ t (.unlinked size c))⟩

omit [DecidableEq Thread] in
/-- All messages are released, in so many rounds as there are messages. -/
theorem releaseAll_eq : ∀ (queueCells : List (Fin maxMsgs)) (rounds : ℕ)
    (s : RtMessagequeue Thread maxMsgs msgSize) (freeCells : List (Fin maxMsgs)),
    queueCells.length ≤ rounds → Layout { s with entry := queueCells.length } freeCells queueCells →
      ∃ s', RtMessagequeue.releaseAll rounds s = some s' ∧
        Layout { s' with entry := 0 } (queueCells.reverse ++ freeCells) [] ∧
        s'.data = s.data ∧ s'.progress = s.progress ∧ s'.suspendThread = s.suspendThread ∧
        s'.suspendSenderThread = s.suspendSenderThread := by
  intro queueCells
  induction queueCells with
  | nil =>
      intro rounds s freeCells _ layout
      have start : s.msgQueueHead = none := layout.queue.start_eq_head?
      refine ⟨s, ?_, layout, rfl, rfl, rfl, rfl⟩
      cases rounds <;> simp only [RtMessagequeue.releaseAll, start, if_true]
  | cons c rest ih =>
      intro rounds s freeCells enough layout
      obtain ⟨rounds, rfl⟩ : ∃ n, rounds = n + 1 := ⟨rounds - 1, by simp at enough; omega⟩
      have start : s.msgQueueHead = some c := layout.queue.start_eq_head?
      obtain ⟨_, same, chain⟩ := (layout.queue.start_eq_head? ▸ layout.queue).uncons
      cases same
      have distinct := List.nodup_middle.mp layout.distinct
      obtain ⟨fresh, _⟩ := List.nodup_cons.mp distinct
      have notFree : c ∉ freeCells := fun inside => fresh (List.mem_append_left _ inside)
      have notQueued : c ∉ rest := fun inside => fresh (List.mem_append_right _ inside)
      have next_ : Layout { s.releaseMsg c with entry := rest.length } (c :: freeCells) rest := by
        refine ⟨layout.free.push notFree, chain.write notQueued _,
          tail_behind (List.nodup_append.mp layout.distinct).2.1 layout.tail, rfl, distinct, ?_⟩
        have apart : ∀ t d, (s.progress t).msg? = some d → d ∉ c :: (freeCells ++ rest) :=
          fun t d has inside => layout.held.apart t d has (List.perm_middle.mem_iff.mpr inside)
        refine ⟨apart, layout.held.exclusive, fun t buffer d filled => ?_⟩
        have has : (s.progress t).msg? = some d := congrArg Progress.msg? filled
        have other : d ≠ c := by
          rintro rfl
          exact apart t d has List.mem_cons_self
        exact (Function.update_of_ne other _ _).trans (layout.held.ended t buffer d filled)
      obtain ⟨s', released, layout', rest_⟩ := ih rounds (s.releaseMsg c) _ (by simpa using enough) next_
      refine ⟨s', ?_, by simpa using layout', rest_⟩
      simp only [RtMessagequeue.releaseAll, start]
      exact released

theorem agree_reset (layout : Layout s freeCells queueCells) :
    ∃ s', s.rtMqReset = some s' ∧ Represents s' (s.view freeCells queueCells).rtMqReset := by
  have awake : Layout { s.resumeAll with entry := queueCells.length } freeCells queueCells :=
    { layout with
      entry := rfl
      held := (layout.held.resumeAll _).resumeAll _ }
  have short : queueCells.length ≤ maxMsgs :=
    length_le_of_nodup (List.nodup_append.mp layout.distinct).2.1
  obtain ⟨s', released, layout', data, progress, waiting, senders⟩ :=
    releaseAll_eq queueCells maxMsgs s.resumeAll freeCells short awake
  refine ⟨{ s' with entry := 0 }, by rw [RtMessagequeue.rtMqReset, released, Option.map_some],
    _, _, layout', BlockQueue.ext ?_ rfl waiting.symm senders.symm ?_⟩
  · change (queueCells.map s.data).reverse ++ freeCells.map s.data =
      (queueCells.reverse ++ freeCells).map s'.data
    rw [data, List.map_append, List.map_reverse]
    rfl
  · change rtIpcListResumeAll s.suspendSenderThread (rtIpcListResumeAll s.suspendThread
      (Progress.map s.data ∘ s.progress)) = Progress.map s'.data ∘ s'.progress
    rw [data, progress, map_comp_resumeAll, map_comp_resumeAll]
    rfl

/-! ## Every step -/

/-- A call returns, and the first thread of a list that waits is resumed. -/
theorem represents_resumeReceiver {s : RtMessagequeue Thread maxMsgs msgSize}
    {a : BlockQueue Thread msgSize} (related : Represents s a) :
    Represents s.resumeReceiver a.resumeReceiver := by
  obtain ⟨freeCells, queueCells, layout, rfl⟩ := related
  have blocks := map_comp_resumeFirst s.data s.progress s.suspendThread
  exact ⟨freeCells, queueCells, { layout with held := layout.held.resumeFirst _ },
    BlockQueue.ext rfl rfl (congrArg Prod.fst blocks) rfl (congrArg Prod.snd blocks)⟩

theorem represents_resumeSender {s : RtMessagequeue Thread maxMsgs msgSize}
    {a : BlockQueue Thread msgSize} (related : Represents s a) :
    Represents s.resumeSender a.resumeSender := by
  obtain ⟨freeCells, queueCells, layout, rfl⟩ := related
  have blocks := map_comp_resumeFirst s.data s.progress s.suspendSenderThread
  exact ⟨freeCells, queueCells, { layout with held := layout.held.resumeFirst _ },
    BlockQueue.ext rfl rfl rfl (congrArg Prod.fst blocks) (congrArg Prod.snd blocks)⟩

theorem represents_idle {s : RtMessagequeue Thread maxMsgs msgSize}
    (layout : Layout s freeCells queueCells) (t : Thread) :
    Represents (s.setProgress t .outside) ((s.view freeCells queueCells).setProgress t .outside) :=
  ⟨freeCells, queueCells, layout.idle t rfl,
    BlockQueue.ext rfl rfl rfl rfl (update_map_comp _ _ t .outside)⟩

theorem represents_link {place : Place} (layout : Layout s freeCells queueCells)
    (small : maxMsgs < 2 ^ 16) (has : s.progress t = .filled place buffer c) :
    Represents ((s.linkMsg place c).setProgress t .outside)
      (((s.view freeCells queueCells).linkMsg place (s.data c)).setProgress t .outside) := by
  cases place with
  | back =>
      exact ⟨freeCells, queueCells ++ [c], layout.linkBack small has,
        BlockQueue.ext rfl (by simp [BlockQueue.linkMsg, BlockQueue.setProgress,
          RtMessagequeue.view, RtMessagequeue.linkMsg, RtMessagequeue.setProgress]) rfl rfl
          (update_map_comp _ _ t .outside)⟩
  | front =>
      exact ⟨freeCells, c :: queueCells, layout.linkFront small has,
        BlockQueue.ext rfl rfl rfl rfl (update_map_comp _ _ t .outside)⟩

theorem represents_release {bytes : List UInt8} (layout : Layout s freeCells queueCells)
    (has : s.progress t = .copied bytes c) :
    Represents ((s.freeMsg c).setProgress t .outside)
      (({ s.view freeCells queueCells with
        free := s.data c :: (s.view freeCells queueCells).free } : BlockQueue Thread msgSize)
        |>.setProgress t .outside) :=
  ⟨c :: freeCells, queueCells, layout.release has,
    BlockQueue.ext rfl rfl rfl rfl (update_map_comp _ _ t .outside)⟩

/-- A thread that waits is resumed when its time has run out. -/
theorem represents_expires {s : RtMessagequeue Thread maxMsgs msgSize} {suspendThread
    suspendSenderThread : List Thread} (layout : Layout s freeCells queueCells) (t : Thread) :
    Represents
      { s with
        suspendThread := suspendThread
        suspendSenderThread := suspendSenderThread
        progress := rtThreadResume s.progress .timeout t }
      { s.view freeCells queueCells with
        suspendThread := suspendThread
        suspendSenderThread := suspendSenderThread
        progress := rtThreadResume (s.view freeCells queueCells).progress .timeout t } :=
  ⟨freeCells, queueCells, { layout with held := layout.held.resume .timeout t },
    BlockQueue.ext rfl rfl rfl rfl (map_comp_resume s.data s.progress .timeout t).symm⟩

/-- **The pool of linked cells refines the queue of blocks.** -/
theorem pool_refines (flag : IpcFlag) (priority : Thread → ℕ) (small : maxMsgs < 2 ^ 16) :
    (messageQueue flag priority maxMsgs msgSize).Refines (blockQueue flag priority msgSize)
      Represents where
  step s a e related := by
    have whole := related
    obtain ⟨freeCells, queueCells, layout, rfl⟩ := related
    have at_ (t : Thread) : (s.view freeCells queueCells).progress t =
        (s.progress t).map s.data := rfl
    cases e with
    | send t buffer timeout =>
        simp only [messageQueue, blockQueue, at_]
        cases has : s.progress t with
        | outside =>
            simp only [Progress.map]
            split
            · exact .none
            · split
              · exact .some ⟨rfl, whole⟩
              · exact .some (agree_sendWait layout)
        | _ => exact .none
    | urgent t buffer =>
        simp only [messageQueue, blockQueue, at_]
        cases has : s.progress t with
        | outside =>
            simp only [Progress.map]
            split
            · exact .none
            · split
              · exact .some ⟨rfl, whole⟩
              · exact .some (agree_urgentTake layout)
        | _ => exact .none
    | fill t =>
        simp only [messageQueue, blockQueue, at_]
        cases has : s.progress t with
        | taken place buffer c => exact .some ⟨rfl, agree_fillMsg layout has⟩
        | _ => exact .none
    | link t =>
        simp only [messageQueue, blockQueue, at_]
        cases has : s.progress t with
        | filled place buffer c =>
            exact .some ⟨rfl, represents_resumeReceiver (represents_link layout small has)⟩
        | _ => exact .none
    | recv t size timeout =>
        simp only [messageQueue, blockQueue, at_]
        cases has : s.progress t with
        | outside =>
            simp only [Progress.map]
            split
            · exact .none
            · exact agree_recvWait layout small
        | _ => exact .none
    | copy t =>
        simp only [messageQueue, blockQueue, at_]
        cases has : s.progress t with
        | unlinked size c =>
            have mine : (s.progress t).msg? = some c := congrArg Progress.msg? has
            refine .some ⟨rfl, freeCells, queueCells, { layout with held := ?_ },
              BlockQueue.ext rfl rfl rfl rfl (update_map_comp _ _ t (.copied _ c))⟩
            refine layout.held.update t _ ?_ (by simp) fun u _ d also =>
              ⟨layout.held.apart u d also, rfl⟩
            rintro d ⟨⟩
            exact ⟨layout.held.apart t c mine,
              fun u other also => other (layout.held.exclusive u t c also mine)⟩
        | _ => exact .none
    | release t =>
        simp only [messageQueue, blockQueue, at_]
        cases has : s.progress t with
        | copied bytes c =>
            exact .some ⟨rfl, represents_resumeSender (represents_release layout has)⟩
        | _ => exact .none
    | runs t elapsed =>
        simp only [messageQueue, blockQueue, at_]
        cases has : s.progress t with
        | sends buffer timeout stat =>
            cases stat with
            | suspended => exact .none
            | ready err =>
                cases err with
                | ok => exact .some (agree_sendWait layout)
                | _ => exact .some ⟨rfl, represents_idle layout t⟩
        | receives size timeout stat =>
            cases stat with
            | suspended => exact .none
            | ready err =>
                cases err with
                | ok => exact agree_recvWait layout small
                | _ => exact .some ⟨rfl, represents_idle layout t⟩
        | _ => exact .none
    | expires t =>
        simp only [messageQueue, blockQueue, at_]
        cases has : s.progress t with
        | sends buffer timeout stat =>
            cases stat with
            | suspended =>
                simp only [Progress.map]
                split
                · exact .some ⟨rfl, represents_expires layout t⟩
                · exact .none
            | ready err => exact .none
        | receives size timeout stat =>
            cases stat with
            | suspended =>
                simp only [Progress.map]
                split
                · exact .some ⟨rfl, represents_expires layout t⟩
                · exact .none
            | ready err => exact .none
        | _ => exact .none
    | reset =>
        obtain ⟨s', reset, related⟩ := agree_reset layout
        simp only [messageQueue, blockQueue, reset, Option.map_some]
        exact .some ⟨rfl, related⟩

end Steps

end WhaleShark.Kernel

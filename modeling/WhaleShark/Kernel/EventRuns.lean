import Mathlib.Algebra.BigOperators.Group.List.Basic
import Mathlib.Algebra.Ring.Nat
import Mathlib.Data.Fintype.Card
import WhaleShark.Kernel.Event

/-!
# No flag is lost and no thread sleeps on

A thread that is suspended at an event object does not have what it waits for, in any state that is
reached (`no_thread_sleeps_on`): sending looks at all of them, and what is cleared on the way can
only take the condition of others away.

Where all receivers clear what they get, every flag that is sent is accounted for: it was received,
or a thread has it that has yet to run, or it is set, or it was set already when it was sent
(`flags_are_accounted_for`).
-/

set_option autoImplicit false

namespace WhaleShark.Kernel

open Foundations

variable {Thread : Type*} [DecidableEq Thread]

/-! ## Conditions -/

/-- Fewer flags. -/
def Within (set set' : Flags) : Prop := ∀ i, set.getLsbD i = true → set'.getLsbD i = true

theorem Within.refl (set : Flags) : Within set set := fun _ there => there

theorem Within.trans {a b c : Flags} (first : Within a b) (second : Within b c) : Within a c :=
  fun i there => second i (first i there)

theorem within_clear (set got : Flags) : Within (set &&& ~~~got) set := by
  intro i there
  rw [BitVec.getLsbD_and, Bool.and_eq_true] at there
  exact there.1

/-- The flags are those wanted exactly if each wanted one is set. -/
theorem and_eq_iff_within {set wanted : Flags} : set &&& wanted = wanted ↔ Within wanted set := by
  constructor
  · intro same i there
    rw [← same, BitVec.getLsbD_and, Bool.and_eq_true] at there
    exact there.1
  · intro within
    refine BitVec.eq_of_getLsbD_eq fun i _ => ?_
    rw [BitVec.getLsbD_and]
    cases there : wanted.getLsbD i with
    | false => simp
    | true => simp [within i there]

theorem and_ne_zero_iff {set wanted : Flags} :
    set &&& wanted ≠ 0 ↔ ∃ i, set.getLsbD i = true ∧ wanted.getLsbD i = true := by
  constructor
  · intro nonzero
    by_contra none_
    refine nonzero (BitVec.eq_of_getLsbD_eq fun i _ => ?_)
    have zero : (0 : Flags).getLsbD i = false := BitVec.getLsbD_zero
    rw [BitVec.getLsbD_and, zero, Bool.and_eq_false_imp]
    intro there
    exact Bool.eq_false_iff.mpr fun also => none_ ⟨i, there, also⟩
  · rintro ⟨i, there, also⟩ zero
    have bit := congrArg (BitVec.getLsbD · i) zero
    simp [there, also] at bit

theorem meets_all_iff {clear : Bool} {wanted set : Flags} :
    (⟨.all, clear⟩ : EventOption).meets wanted set = true ↔ Within wanted set :=
  decide_eq_true_iff.trans and_eq_iff_within

theorem meets_any_iff {clear : Bool} {wanted set : Flags} :
    (⟨.any, clear⟩ : EventOption).meets wanted set = true ↔
      ∃ i, set.getLsbD i = true ∧ wanted.getLsbD i = true :=
  decide_eq_true_iff.trans and_ne_zero_iff

/-- With more flags a condition is met that is met with fewer. -/
theorem EventOption.meets_mono {option : EventOption} {wanted set set' : Flags}
    (within : Within set set') (met : option.meets wanted set = true) :
    option.meets wanted set' = true := by
  obtain ⟨mode, clear⟩ := option
  cases mode with
  | all => exact meets_all_iff.mpr ((meets_all_iff.mp met).trans within)
  | any =>
      obtain ⟨i, there, also⟩ := meets_any_iff.mp met
      exact meets_any_iff.mpr ⟨i, within i there, also⟩

/-- What a thread gets is set. -/
theorem EventOption.gets_within {option : EventOption} {wanted set : Flags}
    (met : option.meets wanted set = true) : Within (option.gets wanted set) set := by
  obtain ⟨mode, clear⟩ := option
  cases mode with
  | all => exact meets_all_iff.mp met
  | any =>
      intro i there
      rw [gets, BitVec.getLsbD_and, Bool.and_eq_true] at there
      exact there.2

/-! ## The loop of `rt_event_send` -/

/-- The thread is suspended with a condition that is not met. -/
def Unmet (set : Flags) (p : EventProgress) : Prop :=
  ∃ eventSet info timeout, p = .waits eventSet info timeout .suspended ∧
    info.meets eventSet set = false

theorem Unmet.mono {set set' : Flags} {p : EventProgress} (unmet : Unmet set p)
    (within : Within set' set) : Unmet set' p := by
  obtain ⟨eventSet, info, timeout, waits, fails⟩ := unmet
  refine ⟨eventSet, info, timeout, waits, Bool.eq_false_iff.mpr fun met => ?_⟩
  rw [EventOption.meets_mono within met] at fails
  cases fails

def EventProgress.isSuspended : EventProgress → Bool
  | .waits _ _ _ .suspended => true
  | _ => false

/-- What the loop over a list of suspended threads leaves. -/
structure Looped (list : List Thread) (set : Flags) (progress : Thread → EventProgress)
    (result : List Thread × Flags × (Thread → EventProgress)) : Prop where
  stay : result.1.Sublist list
  within : Within result.2.1 set
  others : ∀ t ∉ list, result.2.2 t = progress t
  unmet : ∀ t ∈ result.1, Unmet result.2.1 (result.2.2 t)
  resumed : ∀ t ∈ list, t ∉ result.1 → (result.2.2 t).isSuspended = false

theorem looped (list : List Thread) : ∀ (set : Flags) (progress : Thread → EventProgress),
    list.Nodup → (∀ t ∈ list, (progress t).isSuspended = true) →
      Looped list set progress (resumeLoop list set progress) := by
  induction list with
  | nil =>
      intro set progress _ _
      exact ⟨.refl _, .refl _, fun _ _ => rfl, by simp [resumeLoop], by simp⟩
  | cons thread rest ih =>
      intro set progress distinct suspended
      obtain ⟨fresh, distinct⟩ := List.nodup_cons.mp distinct
      have behind : ∀ t ∈ rest, (progress t).isSuspended = true :=
        fun t member => suspended t (List.mem_cons_of_mem _ member)
      cases at_ : progress thread with
      | outside => simpa [at_, EventProgress.isSuspended] using suspended thread List.mem_cons_self
      | waits eventSet info timeout stat =>
          cases stat with
          | ready err =>
              simpa [at_, EventProgress.isSuspended] using suspended thread List.mem_cons_self
          | suspended =>
              cases met : info.meets eventSet set with
              | true =>
                  have other : ∀ t ∈ rest, t ≠ thread := by
                    rintro t member rfl
                    exact fresh member
                  have rest_ := ih
                    (if info.clear then set &&& ~~~(info.gets eventSet set) else set)
                    (Function.update progress thread
                      (.waits (info.gets eventSet set) info timeout (.ready .ok)))
                    distinct fun t member => by
                      rw [Function.update_of_ne (other t member)]
                      exact behind t member
                  simp only [resumeLoop, at_, met, if_true]
                  refine ⟨rest_.stay.trans (List.sublist_cons_self _ _), rest_.within.trans ?_, ?_,
                    rest_.unmet, ?_⟩
                  · split
                    · exact within_clear _ _
                    · exact .refl _
                  · intro t outside
                    obtain ⟨ne, outside'⟩ := not_or.mp (List.mem_cons.not.mp outside)
                    rw [rest_.others t outside', Function.update_of_ne ne]
                  · intro t member gone
                    rcases List.mem_cons.mp member with rfl | later
                    · rw [rest_.others t fresh, Function.update_self]
                      rfl
                    · exact rest_.resumed t later gone
              | false =>
                  have rest_ := ih set progress distinct behind
                  simp only [resumeLoop, at_, met, Bool.false_eq_true, if_false]
                  refine ⟨rest_.stay.cons_cons _, rest_.within, ?_, ?_, ?_⟩
                  · intro t outside
                    exact rest_.others t (not_or.mp (List.mem_cons.not.mp outside)).2
                  · intro t member
                    rcases List.mem_cons.mp member with rfl | later
                    · rw [rest_.others t fresh, at_]
                      exact Unmet.mono ⟨eventSet, info, timeout, rfl, met⟩ rest_.within
                    · exact rest_.unmet t later
                  · intro t member gone
                    obtain ⟨ne, gone'⟩ := not_or.mp (List.mem_cons.not.mp gone)
                    exact rest_.resumed t ((List.mem_cons.mp member).resolve_left ne) gone'

/-! ## What a step can do -/

section Steps

variable (flag : IpcFlag) (priority : Thread → ℕ)

/-- The steps: a call fails at once, flags are sent, a call has what it wants or is suspended, a
thread that was resumed returns or gives up, its time runs out, all is reset. -/
inductive EventStep (s : RtEvent Thread) :
    EventEvent Thread → RtEvent Thread → EventOutput → Prop where
  | refuse {e : EventEvent Thread} {err : RtErr} (sendsNone : ∀ set, e = .send set → set = 0) :
      EventStep s e s (.failed err)
  | send {set : Flags} : EventStep s (.send set) (s.rtEventSend set) .nothing
  | receive {t : Thread} {set : Flags} {option : EventOption} {timeout : ℤ}
      (met : option.meets set s.set = true) :
      EventStep s (.recv t set option timeout)
        { s with set := if option.clear then s.set &&& ~~~set else s.set } (.received (s.set &&& set))
  | wait {t : Thread} {set : Flags} {option : EventOption} {timeout : ℤ}
      (outside : s.progress t = .outside) (unmet : option.meets set s.set = false) :
      EventStep s (.recv t set option timeout)
        { s with
          suspendThread := rtIpcListSuspend flag priority s.suspendThread t
          progress := Function.update s.progress t (.waits set option timeout .suspended) } .nothing
  | wake {t : Thread} {eventSet : Flags} {info : EventOption} {timeout : ℤ}
      (woken : s.progress t = .waits eventSet info timeout (.ready .ok)) :
      EventStep s (.runs t) { s with progress := Function.update s.progress t .outside }
        (.received eventSet)
  | giveUp {t : Thread} {eventSet : Flags} {info : EventOption} {timeout : ℤ} {err : RtErr}
      (failed : err ≠ .ok) (woken : s.progress t = .waits eventSet info timeout (.ready err)) :
      EventStep s (.runs t) { s with progress := Function.update s.progress t .outside }
        (.failed err)
  | expire {t : Thread} {eventSet : Flags} {info : EventOption} {timeout : ℤ}
      (waits : s.progress t = .waits eventSet info timeout .suspended) :
      EventStep s (.expires t)
        { s with
          suspendThread := s.suspendThread.erase t
          progress := Function.update s.progress t
            (.waits eventSet info timeout (.ready .timeout)) } .nothing
  | reset : EventStep s .reset s.rtEventReset .nothing

end Steps

variable {flag : IpcFlag} {priority : Thread → ℕ} {s s' : RtEvent Thread} {e : EventEvent Thread}
  {o : EventOutput}

/-- Every step of the machine is one of these. -/
theorem eventObject_cases (step : (eventObject flag priority).step s e = some (s', o)) :
    EventStep flag priority s e s' o := by
  cases e with
  | send set =>
      simp only [eventObject] at step
      split at step
      · rename_i zero
        cases step
        exact .refuse fun _ same => by cases same; exact zero
      · cases step
        exact .send
  | recv t set option timeout =>
      simp only [eventObject] at step
      cases at_ : s.progress t with
      | outside =>
          rw [at_] at step
          simp only at step
          split at step
          · cases step
            exact .refuse fun _ same => by cases same
          · unfold RtEvent.rtEventRecv at step
            split at step
            · rename_i met
              cases step
              exact .receive met
            · rename_i unmet
              split at step
              · cases step
                exact .refuse fun _ same => by cases same
              · cases step
                exact .wait at_ (Bool.eq_false_iff.mpr unmet)
      | waits => simp [at_] at step
  | runs t =>
      simp only [eventObject] at step
      split at step
      · rename_i woken
        cases step
        exact .wake woken
      · rename_i failed woken
        cases step
        exact .giveUp failed woken
      · cases step
  | expires t =>
      simp only [eventObject] at step
      split at step
      · rename_i waits
        obtain ⟨-, step⟩ := Option.ite_none_right_eq_some.mp step
        cases step
        rw [waits]
        exact .expire waits
      · cases step
  | reset =>
      cases step
      exact .reset

/-! ## No thread sleeps on -/

/-- The threads in the list are those that are suspended, each once, and none of them has what it
waits for. -/
structure Attentive (s : RtEvent Thread) : Prop where
  once : s.suspendThread.Nodup
  mem_iff : ∀ t, t ∈ s.suspendThread ↔ (s.progress t).isSuspended = true
  unmet : ∀ t ∈ s.suspendThread, Unmet s.set (s.progress t)

omit [DecidableEq Thread] in
theorem attentive_created : Attentive (rtEventCreate Thread) :=
  ⟨.nil, fun _ => by simp [rtEventCreate, EventProgress.isSuspended], by simp [rtEventCreate]⟩

/-- A thread goes on that is not suspended, and does not become so; flags may be cleared. -/
theorem Attentive.update (attentive : Attentive s) {t : Thread} {p : EventProgress} {set : Flags}
    (before : (s.progress t).isSuspended = false) (after : p.isSuspended = false)
    (within : Within set s.set) :
    Attentive { s with set := set, progress := Function.update s.progress t p } where
  once := attentive.once
  mem_iff u := by
    by_cases same : u = t
    · simp only [same, Function.update_self, attentive.mem_iff, before, after]
    · simp only [Function.update_of_ne same, attentive.mem_iff]
  unmet u member := by
    have other : u ≠ t := by
      rintro rfl
      rw [attentive.mem_iff, before] at member
      cases member
    simp only [Function.update_of_ne other]
    exact (attentive.unmet u member).mono within

theorem isSuspended_failAll (list : List Thread) : ∀ progress : Thread → EventProgress,
    (∀ t, (progress t).isSuspended = true → t ∈ list) → ∀ t,
      (list.foldl (fun progress t => Function.update progress t ((progress t).fail .error))
        progress t).isSuspended = false := by
  induction list with
  | nil => exact fun progress all t => Bool.eq_false_iff.mpr fun waits => by simpa using all t waits
  | cons u rest ih =>
      intro progress all t
      refine ih (Function.update progress u ((progress u).fail .error)) (fun v waits => ?_) t
      by_cases same : v = u
      · rw [same, Function.update_self] at waits
        cases at_ : progress u with
        | outside => simp [at_, EventProgress.fail, EventProgress.isSuspended] at waits
        | waits _ _ _ stat =>
            cases stat <;> simp [at_, EventProgress.fail, EventProgress.isSuspended] at waits
      · rw [Function.update_of_ne same] at waits
        exact (List.mem_cons.mp (all v waits)).resolve_left same

/-- **One step.** -/
theorem attentive_of_step (attentive : Attentive s) (step : EventStep flag priority s e s' o) :
    Attentive s' := by
  cases step with
  | refuse => exact attentive
  | @send set =>
      have loop := looped s.suspendThread (s.set ||| set) s.progress attentive.once
        fun t member => (attentive.mem_iff t).mp member
      refine ⟨loop.stay.nodup attentive.once, fun t => ⟨fun stays => ?_, fun waits => ?_⟩, loop.unmet⟩
      · obtain ⟨_, _, _, waits, -⟩ := loop.unmet t stays
        change ((resumeLoop s.suspendThread (s.set ||| set) s.progress).2.2 t).isSuspended = true
        rw [waits]
        rfl
      · change ((resumeLoop s.suspendThread (s.set ||| set) s.progress).2.2 t).isSuspended = true
          at waits
        by_contra gone
        by_cases listed : t ∈ s.suspendThread
        · rw [loop.resumed t listed gone] at waits
          cases waits
        · rw [loop.others t listed] at waits
          exact listed ((attentive.mem_iff t).mpr waits)
  | @receive t set option timeout met =>
      refine ⟨attentive.once, attentive.mem_iff, fun u member =>
        (attentive.unmet u member).mono ?_⟩
      simp only
      split
      · exact within_clear _ _
      · exact .refl _
  | @wait t set option timeout outside unmet =>
      have fresh : t ∉ s.suspendThread := fun listed => by
        simpa [outside, EventProgress.isSuspended] using (attentive.mem_iff t).mp listed
      refine ⟨nodup_rtIpcListSuspend.mpr ⟨fresh, attentive.once⟩, fun u => ?_, fun u member => ?_⟩
      · rw [mem_rtIpcListSuspend]
        by_cases same : u = t
        · simp [same, EventProgress.isSuspended]
        · simp only [Function.update_of_ne same, ← attentive.mem_iff, same, false_or]
      · by_cases same : u = t
        · simp only [same, Function.update_self]
          exact ⟨set, option, timeout, rfl, unmet⟩
        · simp only [Function.update_of_ne same]
          exact attentive.unmet u ((mem_rtIpcListSuspend.mp member).resolve_left same)
  | wake woken => exact attentive.update (by rw [woken]; rfl) rfl (.refl _)
  | giveUp _ woken => exact attentive.update (by rw [woken]; rfl) rfl (.refl _)
  | @expire t eventSet info timeout waits =>
      refine ⟨attentive.once.erase t, fun u => ?_, fun u member => ?_⟩
      · rw [attentive.once.mem_erase_iff]
        by_cases same : u = t
        · simp [same, EventProgress.isSuspended]
        · simp only [Function.update_of_ne same, ← attentive.mem_iff, same, ne_eq, not_false_eq_true,
            true_and]
      · obtain ⟨other, listed⟩ := (attentive.once.mem_erase_iff).mp member
        simp only [Function.update_of_ne other]
        exact attentive.unmet u listed
  | reset =>
      have awake := isSuspended_failAll s.suspendThread s.progress
        fun t waits => (attentive.mem_iff t).mpr waits
      exact ⟨.nil, fun t => by simp [RtEvent.rtEventReset, awake], by simp [RtEvent.rtEventReset]⟩

/-- **No thread sleeps on.** At every point of a run, a thread that is suspended in `rt_event_recv`
is in the list that `rt_event_send` goes through, and the flags that are set do not meet its
condition. -/
theorem no_thread_sleeps_on {taken : List (EventTransition Thread)} {last : RtEvent Thread}
    (run : (eventObject flag priority).Run (rtEventCreate Thread) taken last) :
    Machine.Throughout (fun _ s => ∀ t eventSet info timeout,
      s.progress t = .waits eventSet info timeout .suspended →
        t ∈ s.suspendThread ∧ info.meets eventSet s.set = false) taken last := by
  have at_ (s : RtEvent Thread) (attentive : Attentive s) : ∀ t eventSet info timeout,
      s.progress t = .waits eventSet info timeout .suspended →
        t ∈ s.suspendThread ∧ info.meets eventSet s.set = false := by
    intro t eventSet info timeout waits
    have listed : t ∈ s.suspendThread := (attentive.mem_iff t).mpr (by rw [waits]; rfl)
    obtain ⟨eventSet', info', timeout', waits', unmet⟩ := attentive.unmet t listed
    rw [waits] at waits'
    cases waits'
    exact ⟨listed, unmet⟩
  have all := run.invariant (fun _ s => Attentive s) attentive_created
    (fun past τ takes attentive => attentive_of_step attentive (eventObject_cases takes))
  exact ⟨at_ last all.1, fun past τ rest split => at_ τ.source (all.2 past τ rest split)⟩

/-- Two threads wait for the same flag, and the first one clears it. -/
theorem no_thread_sleeps_on_two : ∃ taken last,
    (eventObject .fifo fun _ : Fin 2 => 0).Run (rtEventCreate (Fin 2)) taken last ∧
      last.suspendThread = [1] ∧ last.set = 4 ∧
      ∀ t eventSet info timeout, last.progress t = .waits eventSet info timeout .suspended →
        t ∈ last.suspendThread ∧ info.meets eventSet last.set = false := by
  obtain ⟨taken, last, run, passed⟩ := Machine.exists_run_of_passes
    (eventObject .fifo fun _ : Fin 2 => 0) (rtEventCreate (Fin 2))
    [.recv 0 3 ⟨.any, true⟩ (-1), .recv 1 1 ⟨.all, true⟩ (-1), .send 5]
    (fun _ last => decide (last.suspendThread = [1] ∧ last.set = 4)) (by decide +kernel)
  obtain ⟨one, four⟩ := of_decide_eq_true passed
  exact ⟨taken, last, run, one, four, (no_thread_sleeps_on run).1⟩

/-! ## Flags are accounted for -/

/-- Whether a flag is among these. -/
def bit (i : ℕ) (set : Flags) : ℕ := (set.getLsbD i).toNat

/-- A flag that a thread was resumed with, which has yet to run. -/
def EventProgress.brings (i : ℕ) : EventProgress → ℕ
  | .waits eventSet _ _ (.ready .ok) => bit i eventSet
  | _ => 0

def sentFlag (i : ℕ) (τ : EventTransition Thread) : ℕ :=
  match τ.event with
  | .send set => bit i set
  | _ => 0

/-- The flag was set already when it was sent. -/
def mergedFlag (i : ℕ) (τ : EventTransition Thread) : ℕ :=
  match τ.event with
  | .send set => bit i (τ.source.set &&& set)
  | _ => 0

def receivedFlag (i : ℕ) (τ : EventTransition Thread) : ℕ :=
  match τ.output with
  | .received recved => bit i recved
  | _ => 0

/-- All receivers clear what they get, and nothing is reset. -/
def Clears : EventEvent Thread → Prop
  | .recv _ _ option _ => option.clear = true
  | .reset => False
  | _ => True

instance (e : EventEvent Thread) : Decidable (Clears e) := by
  cases e <;> unfold Clears <;> infer_instance

def EventProgress.Clearing : EventProgress → Prop
  | .waits _ info _ _ => info.clear = true
  | .outside => True

/-- What is cleared was set or stays set. -/
theorem bit_clear {i : ℕ} {set got : Flags} (within : Within got set) :
    bit i (set &&& ~~~got) + bit i got = bit i set := by
  by_cases inside : i < 32
  · unfold bit
    rw [BitVec.getLsbD_and, BitVec.getLsbD_not]
    have there := within i
    cases first : set.getLsbD i <;> cases second : got.getLsbD i <;> simp_all
  · unfold bit
    rw [BitVec.getLsbD_of_ge _ _ (by omega), BitVec.getLsbD_of_ge _ _ (by omega),
      BitVec.getLsbD_of_ge _ _ (by omega)]
    rfl

/-- The flags that are cleared for a call are those it gets and those it wanted in vain. -/
theorem bit_receive (i : ℕ) (set wanted : Flags) :
    bit i (set &&& ~~~wanted) + bit i (set &&& wanted) = bit i set := by
  have same : set &&& ~~~wanted = set &&& ~~~(set &&& wanted) := by
    refine BitVec.eq_of_getLsbD_eq fun j inside => ?_
    simp only [BitVec.getLsbD_and, BitVec.getLsbD_not, inside, decide_true, Bool.true_and]
    cases set.getLsbD j <;> cases wanted.getLsbD j <;> rfl
  rw [same]
  exact bit_clear fun j there => by
    rw [BitVec.getLsbD_and, Bool.and_eq_true] at there
    exact there.1

theorem bit_or (i : ℕ) (a b : Flags) : bit i (a ||| b) + bit i (a &&& b) = bit i a + bit i b := by
  unfold bit
  rw [BitVec.getLsbD_or, BitVec.getLsbD_and]
  cases a.getLsbD i <;> cases b.getLsbD i <;> rfl

variable [Fintype Thread]

/-- A flag that is set, or with threads that have yet to run. -/
def RtEvent.inside (i : ℕ) (s : RtEvent Thread) : ℕ :=
  bit i s.set + total (EventProgress.brings i) s.progress

/-- The loop takes each flag that it clears to the thread that gets it. -/
theorem inside_loop (i : ℕ) (list : List Thread) : ∀ (set : Flags)
    (progress : Thread → EventProgress), (∀ t, (progress t).Clearing) →
      bit i (resumeLoop list set progress).2.1 +
          total (EventProgress.brings i) (resumeLoop list set progress).2.2 =
        bit i set + total (EventProgress.brings i) progress ∧
      ∀ t, ((resumeLoop list set progress).2.2 t).Clearing := by
  induction list with
  | nil => exact fun _ _ clearing => ⟨rfl, clearing⟩
  | cons thread rest ih =>
      intro set progress clearing
      cases at_ : progress thread with
      | outside =>
          simp only [resumeLoop, at_]
          exact ih set progress clearing
      | waits eventSet info timeout stat =>
          cases stat with
          | ready err =>
              simp only [resumeLoop, at_]
              exact ih set progress clearing
          | suspended =>
              cases met : info.meets eventSet set with
              | false =>
                  simp only [resumeLoop, at_, met, Bool.false_eq_true, if_false]
                  exact ih set progress clearing
              | true =>
                  have clear : info.clear = true := by
                    have own := clearing thread
                    rwa [at_] at own
                  simp only [resumeLoop, at_, met, clear, if_true]
                  have taken := bit_clear (i := i) (EventOption.gets_within met)
                  have moved := total_update (EventProgress.brings i) progress thread
                    (.waits (info.gets eventSet set) info timeout (.ready .ok))
                  have idle : (progress thread).brings i = 0 := by rw [at_]; rfl
                  have carried : (EventProgress.waits (info.gets eventSet set) info timeout
                    (.ready .ok)).brings i = bit i (info.gets eventSet set) := rfl
                  obtain ⟨count, clearing'⟩ := ih (set &&& ~~~(info.gets eventSet set))
                    (Function.update progress thread
                      (.waits (info.gets eventSet set) info timeout (.ready .ok))) fun t => by
                        by_cases same : t = thread
                        · rw [same, Function.update_self]
                          exact clear
                        · rw [Function.update_of_ne same]
                          exact clearing t
                  exact ⟨by omega, clearing'⟩

omit [Fintype Thread] in
theorem clearing_update {progress : Thread → EventProgress} (clearing : ∀ t, (progress t).Clearing)
    {t : Thread} {p : EventProgress} (own : p.Clearing) :
    ∀ u, (Function.update progress t p u).Clearing := by
  intro u
  by_cases same : u = t
  · rw [same, Function.update_self]
    exact own
  · rw [Function.update_of_ne same]
    exact clearing u

/-- **One step.** -/
theorem account_of_step {i : ℕ} (clears : Clears e) (clearing : ∀ t, (s.progress t).Clearing)
    (step : EventStep flag priority s e s' o) :
    sentFlag i ⟨s, e, o, s'⟩ + s.inside i =
        receivedFlag i ⟨s, e, o, s'⟩ + s'.inside i + mergedFlag i ⟨s, e, o, s'⟩ ∧
      ∀ t, (s'.progress t).Clearing := by
  have moved (t : Thread) (p : EventProgress) :=
    total_update (EventProgress.brings i) s.progress t p
  cases step with
  | refuse sendsNone =>
      refine ⟨?_, clearing⟩
      have none_ : sentFlag i ⟨s, e, .failed ‹_›, s⟩ = 0 ∧ mergedFlag i ⟨s, e, .failed ‹_›, s⟩ = 0 := by
        cases e with
        | send set =>
            obtain rfl := sendsNone set rfl
            simp [sentFlag, mergedFlag, bit]
        | _ => exact ⟨rfl, rfl⟩
      rw [none_.1, none_.2]
      rfl
  | @send set =>
      obtain ⟨count, clearing'⟩ := inside_loop i s.suspendThread (s.set ||| set) s.progress clearing
      refine ⟨?_, clearing'⟩
      have both := bit_or i s.set set
      change bit i set + (bit i s.set + _) = 0 + (_ + _) + bit i (s.set &&& set)
      simp only [RtEvent.rtEventSend]
      omega
  | @receive t set option timeout met =>
      refine ⟨?_, clearing⟩
      have clear : option.clear = true := clears
      have both := bit_receive i s.set set
      simp only [RtEvent.inside, clear, if_true, sentFlag, receivedFlag, mergedFlag]
      omega
  | @wait t set option timeout outside unmet =>
      refine ⟨?_, clearing_update clearing clears⟩
      have idle := moved t (.waits set option timeout .suspended)
      rw [outside] at idle
      change _ + 0 = _ + 0 at idle
      simp only [RtEvent.inside, sentFlag, receivedFlag, mergedFlag]
      omega
  | @wake t eventSet info timeout woken =>
      refine ⟨?_, clearing_update clearing trivial⟩
      have idle := moved t .outside
      rw [woken] at idle
      change _ + bit i eventSet = _ + 0 at idle
      simp only [RtEvent.inside, sentFlag, receivedFlag, mergedFlag]
      omega
  | @giveUp t eventSet info timeout err failed woken =>
      refine ⟨?_, clearing_update clearing trivial⟩
      have idle := moved t .outside
      have none_ : (s.progress t).brings i = 0 := by
        rw [woken]
        cases err with
        | ok => exact absurd rfl failed
        | _ => rfl
      rw [none_] at idle
      change _ + 0 = _ + 0 at idle
      simp only [RtEvent.inside, sentFlag, receivedFlag, mergedFlag]
      omega
  | @expire t eventSet info timeout waits =>
      have own := clearing t
      rw [waits] at own
      refine ⟨?_, clearing_update clearing own⟩
      have idle := moved t (.waits eventSet info timeout (.ready .timeout))
      rw [waits] at idle
      change _ + 0 = _ + 0 at idle
      simp only [RtEvent.inside, sentFlag, receivedFlag, mergedFlag]
      omega
  | reset => exact clears.elim

/-- **Flags are accounted for.** While all receivers clear what they get, as often as a flag was
sent it was received, or a thread has it that has yet to run, or it is set, or it was set already.
-/
theorem flags_are_accounted_for {taken : List (EventTransition Thread)} {last : RtEvent Thread}
    (run : (eventObject flag priority).Run (rtEventCreate Thread) taken last)
    (clears : ∀ τ ∈ taken, Clears τ.event) (i : ℕ) :
    Machine.Throughout (fun past s => (past.map (sentFlag i)).sum =
      (past.map (receivedFlag i)).sum + s.inside i + (past.map (mergedFlag i)).sum) taken last := by
  have all := run.history
    (fun past s => (past.map (sentFlag i)).sum =
        (past.map (receivedFlag i)).sum + s.inside i + (past.map (mergedFlag i)).sum ∧
      ∀ t, (s.progress t).Clearing)
    ⟨?_, fun _ => trivial⟩
    (fun past τ takes (clears : Clears τ.event) before => by
      have step := account_of_step (i := i) clears before.2 (eventObject_cases takes)
      refine ⟨?_, step.2⟩
      have count : sentFlag i τ + τ.source.inside i =
        receivedFlag i τ + τ.target.inside i + mergedFlag i τ := step.1
      have earlier := before.1
      simp only [List.map_append, List.map_singleton, List.sum_append, List.sum_singleton]
      omega) clears
  · exact ⟨all.1.1, fun past τ rest split => (all.2 past τ rest split).1⟩
  · have idle : total (EventProgress.brings i) (rtEventCreate Thread).progress = 0 :=
      total_const_zero _ fun _ => rfl
    have none_ : bit i (rtEventCreate Thread).set = 0 := by simp [rtEventCreate, bit]
    change 0 = 0 + (_ + _) + 0
    omega

/-- The same flag is sent twice before it is received. -/
theorem flags_are_accounted_for_twice : ∃ taken last,
    (eventObject .fifo fun _ : Fin 2 => 0).Run (rtEventCreate (Fin 2)) taken last ∧
      (taken.map (sentFlag 0)).sum = 3 ∧ (taken.map (mergedFlag 0)).sum = 1 ∧
      (taken.map (sentFlag 0)).sum = (taken.map (receivedFlag 0)).sum + last.inside 0 +
        (taken.map (mergedFlag 0)).sum := by
  obtain ⟨taken, last, run, passed⟩ := Machine.exists_run_of_passes
    (eventObject .fifo fun _ : Fin 2 => 0) (rtEventCreate (Fin 2))
    [.recv 0 1 ⟨.any, true⟩ (-1), .send 1, .send 1, .send 5, .runs 0,
      .recv 0 1 ⟨.any, true⟩ (-1)]
    (fun taken _ => decide ((taken.map (sentFlag 0)).sum = 3 ∧
      (taken.map (mergedFlag 0)).sum = 1 ∧ ∀ τ ∈ taken, Clears τ.event)) (by decide +kernel)
  obtain ⟨three, once, clears⟩ := of_decide_eq_true passed
  exact ⟨taken, last, run, three, once, (flags_are_accounted_for run clears 0).1⟩

end WhaleShark.Kernel

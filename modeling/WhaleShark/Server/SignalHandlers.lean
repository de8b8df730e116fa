import Mathlib.Logic.Function.Basic
import WhaleShark.Foundations.Runs

/-!
# The handler of SIGINT

`get_client` and each `manage_client` run in a `GracefulInterruptHandler`, which installs a handler
of its own when it is entered, and installs the one that it found when it is released. Connections
end in any order, so that what a context found may be the handler of a context that was released
before it.

The handler installed is that of an active context, or the original one when there is none, exactly
while each context restores such a one (`handlers_are_kept_iff`). Two connections that end in the
order in which they began leave a handler behind whose context is gone
(`interrupt_is_missed`).
-/

set_option autoImplicit false

namespace WhaleShark.Server

open Foundations

/-- What is installed: the handler of the process, or that of a context. -/
inductive SigHandler where
  | original
  | context (i : ℕ)
  deriving DecidableEq

/-- `GracefulInterruptHandler`, once it is entered. -/
structure GracefulInterruptHandler where
  originalHandler : SigHandler
  released : Bool
  interrupted : Bool

structure SignalState where
  installed : SigHandler
  contexts : ℕ → Option GracefulInterruptHandler

inductive SignalEvent where
  /-- `__enter__` of a new context -/
  | enters (i : ℕ)
  | releases (i : ℕ)
  /-- `__exit__` -/
  | exits (i : ℕ)
  /-- SIGINT -/
  | interrupts
  deriving DecidableEq

namespace SignalState

variable (s : SignalState)

/-- The context was entered and has not been released. -/
def active (i : ℕ) : Bool := (s.contexts i).any fun h => !h.released

/-- `__enter__` -/
def enter (i : ℕ) : SignalState where
  installed := .context i
  contexts := Function.update s.contexts i (some ⟨s.installed, false, false⟩)

/-- `release`, and what it returns. -/
def release (i : ℕ) : SignalState × Bool :=
  match s.contexts i with
  | none => (s, false)
  | some h =>
      if h.released then (s, false)
      else
        (⟨h.originalHandler, Function.update s.contexts i (some { h with released := true })⟩, true)

/-- `handler` -/
def handler (i : ℕ) : SignalState :=
  let s := (s.release i).1
  { s with
    contexts := Function.update s.contexts i
      ((s.contexts i).map fun h => { h with interrupted := true }) }

end SignalState

/-- The contexts of a process. The original handler is none of theirs. -/
def signals : Machine SignalState SignalEvent Unit where
  step s
    | .enters i => if (s.contexts i).isNone then some (s.enter i, ()) else none
    | .releases i => if (s.contexts i).isSome then some ((s.release i).1, ()) else none
    | .exits i => if (s.contexts i).isSome then some ((s.release i).1, ()) else none
    | .interrupts =>
        match s.installed with
        | .original => some (s, ())
        | .context i => some (s.handler i, ())

abbrev SignalTransition := Transition SignalState SignalEvent Unit

/-- Before `get_client`. -/
def noContexts : SignalState := ⟨.original, fun _ => none⟩

/-! ## What is to hold -/

/-- The handler is that of an active context, or the original one when there is none. -/
def Fits (active : ℕ → Bool) : SigHandler → Prop
  | .original => ∀ i, active i = false
  | .context i => active i = true

/-- A SIGINT that comes while a context is active marks an active context. -/
def MarksActive (τ : SignalTransition) : Prop :=
  τ.event = .interrupts → (∃ i, τ.source.active i = true) →
    ∃ i, τ.source.active i = true ∧
      (τ.target.contexts i).any (fun h => h.interrupted) = true

/-- The handler installed fits, each SIGINT was noticed, and the original handler is back when no
context is active. -/
structure HandlersKept (past : List SignalTransition) (s : SignalState) : Prop where
  installed : Fits s.active s.installed
  noticed : ∀ τ ∈ past, MarksActive τ
  restored : (∀ i, s.active i = false) → s.installed = .original

/-- The context that a step releases. -/
def firstRelease (τ : SignalTransition) : Option ℕ :=
  match τ.event with
  | .enters _ => none
  | .releases i => if τ.source.active i then some i else none
  | .exits i => if τ.source.active i then some i else none
  | .interrupts =>
      match τ.source.installed with
      | .original => none
      | .context i => if τ.source.active i then some i else none

/-- What a context restores is the handler of another context that is active, or the original one
when there is no other. -/
def RestoresFitting (τ : SignalTransition) : Prop :=
  ∀ i h, firstRelease τ = some i → τ.source.contexts i = some h →
    Fits (Function.update τ.source.active i false) h.originalHandler

/-! ## The operations -/

theorem active_eq_true {s : SignalState} {i : ℕ} :
    s.active i = true ↔ ∃ h, s.contexts i = some h ∧ h.released = false := by
  simp [SignalState.active, Option.any_eq_true]

/-- A context that is entered is active. -/
theorem active_enter (s : SignalState) (i : ℕ) :
    (s.enter i).active = Function.update s.active i true := by
  funext j
  by_cases own : j = i
  · subst own
    simp [SignalState.enter, SignalState.active]
  · simp [SignalState.enter, SignalState.active, own]

/-- Releasing an active context installs what it found. -/
theorem release_active {s : SignalState} {i : ℕ} {h : GracefulInterruptHandler}
    (entered : s.contexts i = some h) (active : h.released = false) :
    s.release i =
      (⟨h.originalHandler, Function.update s.contexts i (some { h with released := true })⟩,
        true) := by
  simp [SignalState.release, entered, active]

/-- Releasing any other changes nothing. -/
theorem release_inactive {s : SignalState} {i : ℕ} (inactive : s.active i = false) :
    s.release i = (s, false) := by
  unfold SignalState.release
  cases entered : s.contexts i with
  | none => rfl
  | some h => simpa [SignalState.active, entered] using inactive

theorem active_release (s : SignalState) (i : ℕ) :
    (s.release i).1.active = Function.update s.active i false := by
  by_cases active : s.active i = true
  · obtain ⟨h, entered, fresh⟩ := active_eq_true.mp active
    rw [release_active entered fresh]
    funext j
    by_cases own : j = i
    · subst own
      simp [SignalState.active]
    · simp [SignalState.active, own]
  · have inactive : s.active i = false := Bool.not_eq_true _ ▸ active
    rw [release_inactive inactive, ← inactive, Function.update_eq_self]

/-- The handler releases its context and marks it. -/
theorem active_handler (s : SignalState) (i : ℕ) :
    (s.handler i).active = (s.release i).1.active := by
  funext j
  by_cases own : j = i
  · subst own
    simp only [SignalState.handler, SignalState.active, Function.update_self]
    cases (s.release j).1.contexts j <;> rfl
  · simp [SignalState.handler, SignalState.active, own]

theorem handler_marks {s : SignalState} {i : ℕ} (active : s.active i = true) :
    ((s.handler i).contexts i).any (fun h => h.interrupted) = true := by
  obtain ⟨h, entered, fresh⟩ := active_eq_true.mp active
  simp [SignalState.handler, release_active entered fresh]

/-! ## One step -/

/-- The steps: a context is entered, or one that is active is released, by a call or by a SIGINT;
or nothing changes but a mark, where a context was released before. -/
inductive SignalStep (s : SignalState) : SignalEvent → Option ℕ → SignalState → Prop where
  | enters {i : ℕ} (new : s.contexts i = none) : SignalStep s (.enters i) none (s.enter i)
  | releases {e : SignalEvent} {i : ℕ} (call : e = .releases i ∨ e = .exits i)
      (active : s.active i = true) : SignalStep s e (some i) (s.release i).1
  | again {e : SignalEvent} {i : ℕ} (call : e = .releases i ∨ e = .exits i)
      (inactive : s.active i = false) : SignalStep s e none s
  | interrupts {i : ℕ} (installed : s.installed = .context i) (active : s.active i = true) :
      SignalStep s .interrupts (some i) (s.handler i)
  | interrupts_stale {i : ℕ} (installed : s.installed = .context i)
      (inactive : s.active i = false) : SignalStep s .interrupts none (s.handler i)
  | interrupts_original (installed : s.installed = .original) : SignalStep s .interrupts none s

/-- Every step is one of these. -/
theorem signals_cases {τ : SignalTransition} (takes : signals.Takes τ) :
    SignalStep τ.source τ.event (firstRelease τ) τ.target := by
  obtain ⟨s, e, o, s'⟩ := τ
  have step : signals.step s e = some (s', o) := takes
  have released : ∀ i, (e = .releases i ∨ e = .exits i) → s' = (s.release i).1 →
      SignalStep s e (if s.active i = true then some i else none) s' := by
    rintro i call rfl
    by_cases active : s.active i = true
    · rw [if_pos active]
      exact .releases call active
    · have inactive : s.active i = false := Bool.not_eq_true _ ▸ active
      rw [if_neg active, release_inactive inactive]
      exact .again call inactive
  cases e with
  | enters i =>
      simp only [signals, Option.ite_none_right_eq_some, Option.isNone_iff_eq_none] at step
      obtain ⟨new, same⟩ := step
      cases same
      exact .enters new
  | releases i =>
      simp only [signals, Option.ite_none_right_eq_some] at step
      obtain ⟨-, same⟩ := step
      exact released i (.inl rfl) (Prod.mk.inj (Option.some.inj same)).1.symm
  | exits i =>
      simp only [signals, Option.ite_none_right_eq_some] at step
      obtain ⟨-, same⟩ := step
      exact released i (.inr rfl) (Prod.mk.inj (Option.some.inj same)).1.symm
  | interrupts =>
      simp only [signals] at step
      cases installed : s.installed with
      | original =>
          rw [installed] at step
          cases step
          simp only [firstRelease, installed]
          exact .interrupts_original installed
      | context i =>
          rw [installed] at step
          cases step
          simp only [firstRelease, installed]
          by_cases active : s.active i = true
          · rw [if_pos active]
            exact .interrupts installed active
          · rw [if_neg active]
            exact .interrupts_stale installed (Bool.not_eq_true _ ▸ active)

/-- The handler fits behind a step exactly if what the step restores does. -/
theorem fits_step_iff {τ : SignalTransition} (takes : signals.Takes τ)
    (before : Fits τ.source.active τ.source.installed) :
    Fits τ.target.active τ.target.installed ↔ RestoresFitting τ := by
  obtain ⟨s, e, o, s'⟩ := τ
  have step : SignalStep s e (firstRelease ⟨s, e, o, s'⟩) s' := signals_cases takes
  unfold RestoresFitting
  generalize firstRelease ⟨s, e, o, s'⟩ = first at step ⊢
  have restores {i : ℕ} {installed : SigHandler} (active : s.active i = true)
      (found : ∀ h, s.contexts i = some h → installed = h.originalHandler) :
      Fits (Function.update s.active i false) installed ↔
        ∀ j h, some i = some j → s.contexts j = some h →
          Fits (Function.update s.active j false) h.originalHandler := by
    obtain ⟨h, entered, -⟩ := active_eq_true.mp active
    constructor
    · rintro fits j h' ⟨⟩ entered'
      exact found h' entered' ▸ fits
    · intro fits
      rw [found h entered]
      exact fits i h rfl entered
  have none_ : ∀ i h, none = some i → s.contexts i = some h →
      Fits (Function.update s.active i false) h.originalHandler := by
    rintro i h ⟨⟩
  cases step with
  | @enters i new =>
      refine iff_of_true ?_ none_
      change (s.enter i).active i = true
      rw [active_enter, Function.update_self]
  | again call inactive => exact iff_of_true before none_
  | interrupts_original installed => exact iff_of_true before none_
  | interrupts_stale installed inactive =>
      have known : Fits s.active s.installed := before
      rw [installed] at known
      exact absurd (inactive.symm.trans known) Bool.false_ne_true
  | releases call active =>
      rw [active_release]
      refine restores active fun h entered => ?_
      obtain ⟨h', entered', fresh⟩ := active_eq_true.mp active
      obtain rfl := Option.some.inj (entered.symm.trans entered')
      rw [release_active entered fresh]
  | interrupts installed active =>
      rw [active_handler, active_release]
      refine restores active fun h entered => ?_
      obtain ⟨h', entered', fresh⟩ := active_eq_true.mp active
      obtain rfl := Option.some.inj (entered.symm.trans entered')
      rw [SignalState.handler, release_active entered fresh]

/-- A SIGINT is noticed where the handler fits. -/
theorem marksActive_of_fits {τ : SignalTransition} (takes : signals.Takes τ)
    (fits : Fits τ.source.active τ.source.installed) : MarksActive τ := by
  obtain ⟨s, e, o, s'⟩ := τ
  have step : SignalStep s e (firstRelease ⟨s, e, o, s'⟩) s' := signals_cases takes
  rintro rfl ⟨i, entered⟩
  have fits : Fits s.active s.installed := fits
  generalize firstRelease ⟨s, .interrupts, o, s'⟩ = first at step
  cases step with
  | releases call => exact absurd call (by simp)
  | again call => exact absurd call (by simp)
  | @interrupts j installed active => exact ⟨j, active, handler_marks active⟩
  | interrupts_stale installed inactive =>
      rw [installed] at fits
      exact absurd (inactive.symm.trans fits) Bool.false_ne_true
  | interrupts_original installed =>
      rw [installed] at fits
      exact absurd ((fits i).symm.trans entered) Bool.false_ne_true

/-! ## A run -/

theorem Fits.restored {s : SignalState} (fits : Fits s.active s.installed)
    (none_ : ∀ i, s.active i = false) : s.installed = .original := by
  cases installed : s.installed with
  | original => rfl
  | context i =>
      rw [installed] at fits
      exact absurd ((none_ i).symm.trans fits) Bool.false_ne_true

/-- **The handlers are kept in a run exactly if each context restores one that fits.** -/
theorem handlers_are_kept_iff {taken : List SignalTransition} {last : SignalState}
    (run : signals.Run noContexts taken last) :
    Machine.Throughout HandlersKept taken last ↔ ∀ τ ∈ taken, RestoresFitting τ := by
  refine run.throughout_iff HandlersKept (fun _ => True) RestoresFitting
    ⟨⟨fun _ => rfl, by simp, fun _ => rfl⟩, trivial⟩ ?_ ?_
  · intro past τ takes restores kept _
    have fits := (fits_step_iff takes kept.installed).mpr restores
    refine ⟨⟨fits, fun σ member => ?_, fits.restored⟩, trivial⟩
    rcases List.mem_append.mp member with earlier | here
    · exact kept.noticed σ earlier
    · rw [List.mem_singleton.mp here]
      exact marksActive_of_fits takes kept.installed
  · intro past τ takes not_fitting kept _ after
    exact not_fitting ((fits_step_iff takes kept.installed).mp after.installed)

/-- What a step releases, with what that has found. -/
def restoring (τ : SignalTransition) : Option (ℕ × GracefulInterruptHandler) :=
  (firstRelease τ).bind fun i => (τ.source.contexts i).map fun h => (i, h)

/-- A step that restores the handler of an active context, other than its own. -/
theorem restoresFitting_of_any {τ : SignalTransition}
    (fitting : (restoring τ).all (fun r => match r.2.originalHandler with
      | .original => false
      | .context j => Function.update τ.source.active r.1 false j) = true) : RestoresFitting τ := by
  intro i h first entered
  have here : restoring τ = some (i, h) := by
    rw [restoring, first, Option.bind_some, entered]
    rfl
  rw [here] at fitting
  cases found : h.originalHandler with
  | original => simp [found] at fitting
  | context j => simpa [found, Fits] using fitting

/-- Two connections, one after the other. The first also releases its context before it leaves. -/
theorem handlers_are_kept_iff_one_by_one : ∃ taken last, signals.Run noContexts taken last ∧
    taken.map Transition.event = [.enters 0, .enters 1, .releases 1, .exits 1, .enters 2, .exits 2] ∧
      Machine.Throughout HandlersKept taken last := by
  obtain ⟨taken, last, run, passed⟩ := signals.exists_run_of_passes noContexts
    [.enters 0, .enters 1, .releases 1, .exits 1, .enters 2, .exits 2]
    (fun taken _ =>
      decide (taken.map Transition.event =
        [.enters 0, .enters 1, .releases 1, .exits 1, .enters 2, .exits 2]) &&
      taken.all fun τ => (restoring τ).all (fun r => match r.2.originalHandler with
        | .original => false
        | .context j => Function.update τ.source.active r.1 false j)) (by decide)
  rw [Bool.and_eq_true, List.all_eq_true] at passed
  exact ⟨taken, last, run, of_decide_eq_true passed.1, (handlers_are_kept_iff run).mpr
    fun τ member => restoresFitting_of_any (passed.2 τ member)⟩

/-- **A SIGINT is missed.** `get_client` is in context 0; two connections begin, and end in the same
order. The handler of the first is installed, which is gone, and a SIGINT marks that one. -/
theorem interrupt_is_missed : ∃ taken last, signals.Run noContexts taken last ∧
    last.active 0 = true ∧ last.installed = .context 1 ∧
      (last.contexts 0).any (fun h => h.interrupted) = false ∧
      ¬ Machine.Throughout HandlersKept taken last := by
  obtain ⟨taken, last, run, passed⟩ := signals.exists_run_of_passes noContexts
    [.enters 0, .enters 1, .enters 2, .exits 1, .exits 2, .interrupts]
    (fun _ last => last.active 0 && decide (last.installed = .context 1) &&
      !(last.contexts 0).any (fun h => h.interrupted) && !last.active 1) (by decide)
  simp only [Bool.and_eq_true, Bool.not_eq_true', decide_eq_true_eq] at passed
  obtain ⟨⟨⟨active, installed⟩, unmarked⟩, gone⟩ := passed
  refine ⟨taken, last, run, active, installed, unmarked, fun kept => ?_⟩
  have fits := kept.1.installed
  rw [installed] at fits
  exact Bool.false_ne_true (gone.symm.trans fits)

end WhaleShark.Server

import WhaleShark.Foundations.Separations

/-!
# Runs of guarded machines

A machine answers an event with an output and a next state, or is not enabled at it. A run
is a start state together with the list of transitions taken from it, so that a statement
about every step of a run is a statement about the members of that list.

The rules are the ones a development over such a machine uses. A relation between the
transitions taken so far and the state reached is carried along a run when each transition extends
it (`Run.invariant`), or each transition that meets a condition, where all of them do (`Run.history`,
and `Run.history_of_past` for a condition that looks back). Where the other transitions break the
relation the condition is exact (`Run.throughout_iff`). `exec` executes a list of events, and what
it returns is a run (`run_exec`), so that a concrete run can be computed and checked
(`exists_run_of_passes`).
-/

set_option autoImplicit false

namespace Foundations

/-- A machine with guarded steps. `none` says that the event is not enabled. -/
structure Machine (State Event Output : Type*) where
  step : State → Event → Option (State × Output)

/-- One step taken: where it started, the event, what was put out, and where it ended. -/
structure Transition (State Event Output : Type*) where
  source : State
  event : Event
  output : Output
  target : State

namespace Machine

variable {State Event Output : Type*} (M : Machine State Event Output)

/-- The machine can take this transition. -/
def Takes (τ : Transition State Event Output) : Prop :=
  M.step τ.source τ.event = some (τ.target, τ.output)

/-- A run, as the transitions taken from the first state to the last one. -/
inductive Run (first : State) : List (Transition State Event Output) → State → Prop where
  | nil : Run first [] first
  | snoc {taken : List (Transition State Event Output)} {s : State}
      {τ : Transition State Event Output} (earlier : Run first taken s)
      (joins : τ.source = s) (takes : M.Takes τ) : Run first (taken ++ [τ]) τ.target

variable {M} {first last : State} {taken : List (Transition State Event Output)}

theorem Run.single {τ : Transition State Event Output} (takes : M.Takes τ) :
    M.Run τ.source [τ] τ.target :=
  (Run.snoc .nil rfl takes : M.Run τ.source ([] ++ [τ]) τ.target)

theorem Run.append {middle : State} {later : List (Transition State Event Output)}
    (before : M.Run first taken middle) (after : M.Run middle later last) :
    M.Run first (taken ++ later) last := by
  induction after with
  | nil => simpa using before
  | snoc _ joins takes ih =>
      rw [← List.append_assoc]
      exact .snoc ih joins takes

theorem Run.of_nil (run : M.Run first [] last) : last = first := by
  generalize empty : [] = taken at run
  cases run with
  | nil => rfl
  | snoc => simp at empty

/-- The first transition of a run, and the run behind it. -/
theorem Run.uncons {τ : Transition State Event Output} {rest : List (Transition State Event Output)}
    (run : M.Run first (τ :: rest) last) :
    τ.source = first ∧ M.Takes τ ∧ M.Run τ.target rest last := by
  generalize whole : τ :: rest = taken at run
  induction run generalizing rest with
  | nil => cases whole
  | @snoc taken s σ earlier joins takes ih =>
      cases taken with
      | nil =>
          cases whole
          exact ⟨joins.trans earlier.of_nil, takes, .nil⟩
      | cons head tail =>
          cases whole
          obtain ⟨source, first_, behind⟩ := ih rfl
          exact ⟨source, first_, .snoc behind joins takes⟩

/-- Every member of a run is a transition of the machine. -/
theorem Run.takes (run : M.Run first taken last) : ∀ τ ∈ taken, M.Takes τ := by
  induction run with
  | nil => simp
  | snoc _ _ takes ih =>
      intro τ member
      rcases List.mem_append.mp member with earlier | here
      · exact ih τ earlier
      · rw [List.mem_singleton.mp here]
        exact takes

/-- A relation between the transitions taken so far and the state reached, at every point of a
run. -/
def Throughout (Rel : List (Transition State Event Output) → State → Prop)
    (taken : List (Transition State Event Output)) (last : State) : Prop :=
  Rel taken last ∧ ∀ past τ rest, taken = past ++ τ :: rest → Rel past τ.source

/-- **The history rule**, for a condition on a transition and those before it. -/
theorem Run.history_of_past (run : M.Run first taken last)
    (Rel : List (Transition State Event Output) → State → Prop)
    {ok : List (Transition State Event Output) → Transition State Event Output → Prop}
    (initial : Rel [] first)
    (extends_ : ∀ past τ, M.Takes τ → ok past τ → Rel past τ.source → Rel (past ++ [τ]) τ.target)
    (condition : ∀ past τ rest, taken = past ++ τ :: rest → ok past τ) :
    Throughout Rel taken last := by
  induction run with
  | nil => exact ⟨initial, by simp⟩
  | @snoc taken s τ _ joins takes ih =>
      have earlier : ∀ past σ rest, taken = past ++ σ :: rest → ok past σ := by
        intro past σ rest split
        exact condition past σ (rest ++ [τ]) (by simp [split])
      obtain ⟨reached, along⟩ := ih earlier
      have before : Rel taken τ.source := joins ▸ reached
      refine ⟨extends_ taken τ takes (condition taken τ [] rfl) before, fun past σ rest split => ?_⟩
      rcases concat_eq_append_cons_iff.mp split with ⟨rfl, rfl, -⟩ | ⟨front, -, split⟩
      · exact before
      · exact along past σ front split

/-- **The history rule.** A relation between the transitions taken so far and the state reached
is carried along a run when each transition that meets the condition extends it. It then holds
at every point of the run. -/
theorem Run.history (run : M.Run first taken last)
    (Rel : List (Transition State Event Output) → State → Prop)
    {ok : Transition State Event Output → Prop} (initial : Rel [] first)
    (extends_ : ∀ past τ, M.Takes τ → ok τ → Rel past τ.source → Rel (past ++ [τ]) τ.target)
    (condition : ∀ τ ∈ taken, ok τ) : Throughout Rel taken last :=
  run.history_of_past Rel initial extends_ fun _ τ _ split => condition τ (by simp [split])

/-- **The invariant rule.** What every transition extends holds at every point of a run. -/
theorem Run.invariant (run : M.Run first taken last)
    (Rel : List (Transition State Event Output) → State → Prop) (initial : Rel [] first)
    (extends_ : ∀ past τ, M.Takes τ → Rel past τ.source → Rel (past ++ [τ]) τ.target) :
    Throughout Rel taken last :=
  run.history_of_past Rel initial (fun past τ takes (_ : True) => extends_ past τ takes)
    fun _ _ _ _ => trivial

theorem Throughout.earlier {Rel : List (Transition State Event Output) → State → Prop}
    {τ : Transition State Event Output} {s : State} (all : Throughout Rel (taken ++ [τ]) last)
    (joins : τ.source = s) : Throughout Rel taken s := by
  obtain ⟨-, along⟩ := all
  refine ⟨joins ▸ along taken τ [] rfl, fun past σ rest split => along past σ (rest ++ [τ]) ?_⟩
  rw [split]
  simp

/-- **The rule of the exact condition.** When the transitions that meet the condition extend the
relation and the others break it, the relation holds at every point of a run exactly if all its
transitions meet the condition. -/
theorem Run.throughout_iff (run : M.Run first taken last)
    (Rel : List (Transition State Event Output) → State → Prop) (Inv : State → Prop)
    (ok : Transition State Event Output → Prop) (initial : Rel [] first ∧ Inv first)
    (extends_ : ∀ past τ, M.Takes τ → ok τ → Rel past τ.source → Inv τ.source →
      Rel (past ++ [τ]) τ.target ∧ Inv τ.target)
    (breaks : ∀ past τ, M.Takes τ → ¬ ok τ → Rel past τ.source → Inv τ.source →
      ¬ Rel (past ++ [τ]) τ.target) :
    Throughout Rel taken last ↔ ∀ τ ∈ taken, ok τ := by
  have carried : ∀ {taken : List (Transition State Event Output)} {last : State},
      M.Run first taken last → (∀ τ ∈ taken, ok τ) →
        Throughout (fun past s => Rel past s ∧ Inv s) taken last :=
    fun run condition => run.history (fun past s => Rel past s ∧ Inv s) initial
      (fun past τ takes here before => extends_ past τ takes here before.1 before.2) condition
  constructor
  · intro all
    induction run with
    | nil => simp
    | @snoc taken s τ earlier joins takes ih =>
        have condition := ih (all.earlier joins)
        obtain ⟨reached, -⟩ := carried earlier condition
        have before : Rel taken τ.source ∧ Inv τ.source := joins ▸ reached
        have here : ok τ := by
          by_contra not_ok
          exact breaks taken τ takes not_ok before.1 before.2 all.1
        intro σ member
        rcases List.mem_append.mp member with old | new
        · exact condition σ old
        · rw [List.mem_singleton.mp new]
          exact here
  · intro condition
    obtain ⟨reached, along⟩ := carried run condition
    exact ⟨reached.1, fun past τ rest split => (along past τ rest split).1⟩

/-! ## Executing a list of events -/

/-- Execute the events in order; `none` when one of them is not enabled. -/
def exec (M : Machine State Event Output) :
    State → List Event → Option (List (Transition State Event Output) × State)
  | s, [] => some ([], s)
  | s, e :: events =>
      match M.step s e with
      | none => none
      | some (s', o) =>
          match M.exec s' events with
          | none => none
          | some (taken, last) => some (⟨s, e, o, s'⟩ :: taken, last)

/-- What `exec` returns is a run. -/
theorem run_exec {events : List Event} :
    ∀ {s last : State} {taken : List (Transition State Event Output)},
      M.exec s events = some (taken, last) → M.Run s taken last := by
  induction events with
  | nil =>
      intro s last taken executed
      simp only [exec, Option.some.injEq, Prod.mk.injEq] at executed
      obtain ⟨rfl, rfl⟩ := executed
      exact .nil
  | cons e events ih =>
      intro s last taken executed
      simp only [exec] at executed
      cases stepped : M.step s e with
      | none => simp [stepped] at executed
      | some next =>
          obtain ⟨s', o⟩ := next
          cases rest : M.exec s' events with
          | none => simp [stepped, rest] at executed
          | some result =>
              simp only [stepped, rest, Option.some.injEq, Prod.mk.injEq] at executed
              obtain ⟨rfl, rfl⟩ := executed
              have head : M.Run s [⟨s, e, o, s'⟩] s' := Run.single (τ := ⟨s, e, o, s'⟩) stepped
              exact head.append (ih rest)

/-- It takes the events that it is given. -/
theorem events_of_exec {events : List Event} :
    ∀ {s last : State} {taken : List (Transition State Event Output)},
      M.exec s events = some (taken, last) → taken.map Transition.event = events := by
  induction events with
  | nil =>
      intro s last taken executed
      cases executed
      rfl
  | cons e events ih =>
      intro s last taken executed
      simp only [exec] at executed
      cases stepped : M.step s e with
      | none => simp [stepped] at executed
      | some next =>
          obtain ⟨s', o⟩ := next
          cases rest : M.exec s' events with
          | none => simp [stepped, rest] at executed
          | some result =>
              simp only [stepped, rest, Option.some.injEq, Prod.mk.injEq] at executed
              obtain ⟨rfl, rfl⟩ := executed
              rw [List.map_cons, ih rest]

/-- The events are enabled one after the other, and the run passes the check. -/
def passes (M : Machine State Event Output) (s : State) (events : List Event)
    (check : List (Transition State Event Output) → State → Bool) : Bool :=
  match M.exec s events with
  | none => false
  | some (taken, last) => check taken last

theorem exists_run_of_passes (M : Machine State Event Output) (s : State) (events : List Event)
    (check : List (Transition State Event Output) → State → Bool)
    (passed : M.passes s events check = true) :
    ∃ taken last, M.Run s taken last ∧ check taken last = true := by
  unfold passes at passed
  cases executed : M.exec s events with
  | none => simp [executed] at passed
  | some result =>
      obtain ⟨taken, last⟩ := result
      rw [executed] at passed
      exact ⟨taken, last, run_exec executed, passed⟩

end Machine

end Foundations

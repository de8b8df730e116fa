import Mathlib.Data.List.Forall2
import Mathlib.Data.Option.Basic
import WhaleShark.Foundations.Runs

/-!
# One machine keeps to another

Two machines have the same events and the same outputs. The first one refines the second when
related states answer an event alike: either neither of them is enabled at it, or both put out the
same and the states reached are related again (`Refines`).

A run of the first is then step by step a run of the second (`Refines.run`), and the other way round
(`Refines.symm`). So what holds of every run of the abstract machine holds of the concrete one, as
far as events and outputs tell (`Matches`). Where a step of the one machine is several steps of the
other, or none, its runs have runs for their images (`Run.images`).
-/

set_option autoImplicit false

namespace Foundations

namespace Machine

variable {State State' Event Output : Type*}

/-- Related states answer each event alike. -/
structure Refines (M : Machine State Event Output) (A : Machine State' Event Output)
    (Rel : State → State' → Prop) : Prop where
  step : ∀ s a e, Rel s a →
    Option.Rel (fun x y => x.2 = y.2 ∧ Rel x.1 y.1) (M.step s e) (A.step a e)

/-- The same event with the same output, between related states. -/
structure Matches (Rel : State → State' → Prop) (τ : Transition State Event Output)
    (σ : Transition State' Event Output) : Prop where
  event : τ.event = σ.event
  output : τ.output = σ.output
  source : Rel τ.source σ.source
  target : Rel τ.target σ.target

variable {M : Machine State Event Output} {A : Machine State' Event Output}
  {Rel : State → State' → Prop} {first last : State} {first' : State'}
  {taken : List (Transition State Event Output)}

theorem Refines.symm (refines : M.Refines A Rel) : A.Refines M fun a s => Rel s a where
  step a s e related := by
    have answers := refines.step s a e related
    generalize M.step s e = x at answers
    generalize A.step a e = y at answers
    cases answers with
    | some alike => exact .some ⟨alike.1.symm, alike.2⟩
    | none => exact .none

/-- What the first machine answers, the second one answers too. -/
theorem Refines.answer (refines : M.Refines A Rel) {s s' : State} {a : State'} {e : Event}
    {o : Output} (related : Rel s a) (step : M.step s e = some (s', o)) :
    ∃ a', A.step a e = some (a', o) ∧ Rel s' a' := by
  have answers := refines.step s a e related
  rw [step] at answers
  generalize answer : A.step a e = result at answers
  obtain ⟨same, target⟩ | _ := answers
  rename_i next
  obtain ⟨a', o'⟩ := next
  obtain rfl : o = o' := same
  exact ⟨a', rfl, target⟩

/-- **The rule of simulation.** A machine that answers each transition of a run has a run alike. -/
theorem Run.answered (run : M.Run first taken last) (related : Rel first first')
    (answers : ∀ τ ∈ taken, M.Takes τ → ∀ a, Rel τ.source a →
      ∃ a', A.step a τ.event = some (a', τ.output) ∧ Rel τ.target a') :
    ∃ taken' last', A.Run first' taken' last' ∧ List.Forall₂ (Matches Rel) taken taken' ∧
      Rel last last' := by
  induction run with
  | nil => exact ⟨[], first', .nil, .nil, related⟩
  | @snoc taken s τ _ joins takes ih =>
      obtain ⟨taken', s', run', alike, reached⟩ :=
        ih fun σ member => answers σ (List.mem_append_left [τ] member)
      obtain ⟨t', step', target⟩ := answers τ (by simp) takes s' (joins ▸ reached)
      let σ : Transition State' Event Output := ⟨s', τ.event, τ.output, t'⟩
      have alike' : Matches Rel τ σ := ⟨rfl, rfl, joins ▸ reached, target⟩
      exact ⟨taken' ++ [σ], t', .snoc (τ := σ) run' rfl step',
        List.rel_append alike (.cons alike' .nil), target⟩

/-- **The rule of refinement.** -/
theorem Refines.run (refines : M.Refines A Rel) (run : M.Run first taken last)
    (related : Rel first first') :
    ∃ taken' last', A.Run first' taken' last' ∧ List.Forall₂ (Matches Rel) taken taken' ∧
      Rel last last' :=
  run.answered related fun _ _ takes _ source => refines.answer source takes

/-- **The rule of images.** Where each transition of a run has a run of another machine for its image,
between the views of its states, the images one behind the other are a run. A transition without an
image leaves the view. -/
theorem Run.images {Event' Output' : Type*} {A : Machine State' Event' Output'}
    (run : M.Run first taken last) (view : State → State')
    (image : Transition State Event Output → List (Transition State' Event' Output'))
    (each : ∀ τ ∈ taken, M.Takes τ → A.Run (view τ.source) (image τ) (view τ.target)) :
    A.Run (view first) (taken.flatMap image) (view last) := by
  induction run with
  | nil => exact .nil
  | @snoc taken s τ _ joins takes ih =>
      rw [List.flatMap_append, List.flatMap_singleton]
      have earlier := ih fun σ member => each σ (List.mem_append_left [τ] member)
      rw [← joins] at earlier
      exact earlier.append (each τ (by simp) takes)

/-- Each transition of the one run has its match in the other. -/
theorem exists_of_matches {taken' : List (Transition State' Event Output)}
    (alike : List.Forall₂ (Matches Rel) taken taken') {τ : Transition State Event Output}
    (member : τ ∈ taken) : ∃ σ ∈ taken', Matches Rel τ σ := by
  induction alike with
  | nil => cases member
  | @cons τ' σ taken taken' here _ ih =>
      rcases List.mem_cons.mp member with rfl | later
      · exact ⟨σ, List.mem_cons_self, here⟩
      · obtain ⟨σ', member', there⟩ := ih later
        exact ⟨σ', List.mem_cons_of_mem _ member', there⟩

/-- What is read off the event and the output alone is the same in both runs. -/
theorem filterMap_eq_of_matches {taken' : List (Transition State' Event Output)} {Item : Type*}
    (alike : List.Forall₂ (Matches Rel) taken taken') (read : Event → Output → Option Item) :
    taken.filterMap (fun τ => read τ.event τ.output) =
      taken'.filterMap (fun σ => read σ.event σ.output) := by
  induction alike with
  | nil => rfl
  | @cons τ σ taken taken' here _ ih =>
      rw [List.filterMap_cons, List.filterMap_cons, here.event, here.output, ih]

/-- A condition on the event and the output alone. -/
theorem forall_of_matches {taken' : List (Transition State' Event Output)}
    (ok : Event → Output → Prop) (alike : List.Forall₂ (Matches Rel) taken taken')
    (condition : ∀ τ ∈ taken, ok τ.event τ.output) : ∀ σ ∈ taken', ok σ.event σ.output := by
  induction alike with
  | nil => simp
  | @cons τ σ taken taken' here _ ih =>
      intro σ' member
      rcases List.mem_cons.mp member with rfl | later
      · exact here.event ▸ here.output ▸ condition τ List.mem_cons_self
      · exact ih (fun τ member => condition τ (List.mem_cons_of_mem _ member)) σ' later

end Machine

end Foundations

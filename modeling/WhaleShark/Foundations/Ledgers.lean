import WhaleShark.Foundations.Runs

/-!
# What has gone in and what has come out

A ledger of a machine says which item a step puts in, which item a step brings out, and which
items are inside a state, in the order in which they are to come out. It is exact at a point of a
run when the items put in so far are those brought out so far, followed by those inside: nothing
was lost, changed, brought out twice or in another order.

A step balances when it keeps an exact ledger exact (`Ledger.exact_snoc`). When the steps that
balance are those that meet a condition, the ledger is exact throughout a run exactly if all steps
of the run meet it (`Run.ledger_iff`).
-/

set_option autoImplicit false

namespace Foundations

namespace Machine

/-- The items that steps put in and bring out, and those inside a state. -/
structure Ledger (State Event Output Item : Type*) where
  enters : Transition State Event Output → Option Item
  leaves : Transition State Event Output → Option Item
  inside : State → List Item

variable {State Event Output Item : Type*} {M : Machine State Event Output}

namespace Ledger

variable (L : Ledger State Event Output Item)

/-- What was put in is what came out and what is inside. -/
def Exact (past : List (Transition State Event Output)) (s : State) : Prop :=
  past.filterMap L.enters = past.filterMap L.leaves ++ L.inside s

instance [DecidableEq Item] (past : List (Transition State Event Output)) (s : State) :
    Decidable (L.Exact past s) := inferInstanceAs (Decidable (_ = _))

/-- What a step puts in and takes over is what it brings out and leaves. -/
def Balanced (τ : Transition State Event Output) : Prop :=
  L.inside τ.source ++ (L.enters τ).toList = (L.leaves τ).toList ++ L.inside τ.target

variable {L}

theorem filterMap_singleton_toList (f : Transition State Event Output → Option Item)
    (τ : Transition State Event Output) : [τ].filterMap f = (f τ).toList := by
  cases found : f τ <;> simp [found]

theorem exact_snoc {past : List (Transition State Event Output)}
    {τ : Transition State Event Output} (before : L.Exact past τ.source) :
    L.Exact (past ++ [τ]) τ.target ↔ L.Balanced τ := by
  unfold Exact at before ⊢
  rw [List.filterMap_append, List.filterMap_append, filterMap_singleton_toList,
    filterMap_singleton_toList, before, List.append_assoc, List.append_assoc,
    List.append_cancel_left_eq, Balanced]

/-- A step that puts nothing in and brings nothing out keeps what is inside. -/
theorem balanced_of_same {τ : Transition State Event Output} (enters : L.enters τ = none)
    (leaves : L.leaves τ = none) :
    L.Balanced τ ↔ L.inside τ.target = L.inside τ.source := by
  rw [Balanced, enters, leaves]
  simp [eq_comm]

/-- A step that only puts an item in adds it behind the others. -/
theorem balanced_of_enters {τ : Transition State Event Output} {item : Item}
    (enters : L.enters τ = some item) (leaves : L.leaves τ = none) :
    L.Balanced τ ↔ L.inside τ.target = L.inside τ.source ++ [item] := by
  rw [Balanced, enters, leaves]
  simp [eq_comm]

/-- A step that only brings an item out takes it from the front. -/
theorem balanced_of_leaves {τ : Transition State Event Output} {item : Item}
    (enters : L.enters τ = none) (leaves : L.leaves τ = some item) :
    L.Balanced τ ↔ L.inside τ.source = item :: L.inside τ.target := by
  rw [Balanced, enters, leaves]
  simp

end Ledger

/-- **The rule of the ledger.** -/
theorem Run.ledger_iff {first last : State} {taken : List (Transition State Event Output)}
    (run : M.Run first taken last) (L : Ledger State Event Output Item) (Inv : State → Prop)
    (ok : Transition State Event Output → Prop) (empty : L.inside first = []) (initial : Inv first)
    (balanced : ∀ τ, M.Takes τ → Inv τ.source → (L.Balanced τ ↔ ok τ))
    (preserved : ∀ τ, M.Takes τ → Inv τ.source → ok τ → Inv τ.target) :
    Throughout L.Exact taken last ↔ ∀ τ ∈ taken, ok τ := by
  refine run.throughout_iff L.Exact Inv ok ⟨by simp [Ledger.Exact, empty], initial⟩ ?_ ?_
  · intro past τ takes here before inv
    exact ⟨(Ledger.exact_snoc before).mpr ((balanced τ takes inv).mpr here),
      preserved τ takes inv here⟩
  · intro past τ takes not_ok before inv after
    exact not_ok ((balanced τ takes inv).mp ((Ledger.exact_snoc before).mp after))

end Machine

end Foundations

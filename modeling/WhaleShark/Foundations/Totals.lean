import Mathlib.Algebra.BigOperators.Group.Finset.Piecewise

/-!
# What many parties make together

Each party is in some state, and a state counts for something. When one party changes its state, the
total changes by what that state counts (`total_update`).
-/

set_option autoImplicit false

namespace Foundations

variable {Party State : Type*} [Fintype Party] (w : State → ℕ)

def total (states : Party → State) : ℕ := ∑ t, w (states t)

theorem total_const_zero {states : Party → State} (zero : ∀ t, w (states t) = 0) :
    total w states = 0 := by
  simp [total, zero]

theorem total_update [DecidableEq Party] (states : Party → State) (t : Party) (s : State) :
    total w (Function.update states t s) + w (states t) = total w states + w s := by
  have updated : (fun u => w (Function.update states t s u)) =
      Function.update (w ∘ states) t (w s) := Function.comp_update w states t s
  have before := Finset.sum_erase_add Finset.univ (w ∘ states) (Finset.mem_univ t)
  unfold total
  rw [updated, Finset.sum_update_of_mem (Finset.mem_univ t), Finset.sdiff_singleton_eq_erase]
  simp only [Function.comp_apply] at before ⊢
  omega

/-- A change that counts the same. -/
theorem total_update_of_eq [DecidableEq Party] {states : Party → State} {t : Party} {s : State}
    (same : w s = w (states t)) : total w (Function.update states t s) = total w states := by
  have counted := total_update w states t s
  omega

end Foundations

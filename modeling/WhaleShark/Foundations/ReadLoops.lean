import Mathlib.Data.Int.Order.Basic
import WhaleShark.Foundations.Runs

/-!
# The books of a read loop

A thread reads into a buffer behind the bytes that it holds, has a parser look at all of them, and
drops what the parser has consumed. It counts with unsigned words, so each of its two differences
must not become negative: the length that it asks for, and what is left of what it holds.

`Pass` is once around such a loop. Where each pass asks for what is free, reads no more and consumes
no more than it holds, what is held never exceeds the buffer (`Pass.InRange.left_le`). A machine
whose transitions consist of such passes keeps its books over every run
(`Machine.keepsBooks_of_step`).
-/

set_option autoImplicit false

namespace Foundations

/-- Once around: what is held before, what is read behind it, and what the parser consumes. -/
structure Pass where
  held : ℕ
  read : ℕ
  consumed : ℕ
  deriving DecidableEq

namespace Pass

/-- The length that is asked for, before it is taken for an unsigned one. -/
def request (size : ℕ) (p : Pass) : ℤ := size - p.held

/-- What is left, before it is taken for an unsigned length. -/
def left (p : Pass) : ℤ := (p.held + p.read : ℕ) - p.consumed

/-- Neither difference is negative, and what is held fits into the buffer all the time. -/
structure InRange (size : ℕ) (p : Pass) : Prop where
  request : 0 ≤ p.request size
  fits : p.held + p.read ≤ size
  left : 0 ≤ p.left

instance (size : ℕ) (p : Pass) : Decidable (p.InRange size) :=
  decidable_of_iff (0 ≤ p.request size ∧ p.held + p.read ≤ size ∧ 0 ≤ p.left)
    ⟨fun all => ⟨all.1, all.2.1, all.2.2⟩, fun all => ⟨all.request, all.fits, all.left⟩⟩

theorem inRange_iff (size : ℕ) (p : Pass) :
    p.InRange size ↔ p.held + p.read ≤ size ∧ p.consumed ≤ p.held + p.read := by
  constructor
  · rintro ⟨-, fits, left⟩
    exact ⟨fits, Int.ofNat_le.mp (Int.sub_nonneg.mp left)⟩
  · rintro ⟨fits, consumed⟩
    refine ⟨?_, fits, Int.sub_nonneg.mpr (Int.ofNat_le.mpr consumed)⟩
    exact Int.sub_nonneg.mpr (Int.ofNat_le.mpr (Nat.le_of_add_right_le fits))

/-- What is left fits into the buffer. -/
theorem InRange.left_le {size : ℕ} {p : Pass} (inRange : p.InRange size) :
    p.held + p.read - p.consumed ≤ size :=
  Nat.le_trans (Nat.sub_le _ _) inRange.fits

end Pass

namespace Machine

variable {State Event Output : Type*} {M : Machine State Event Output}

/-- In every run, what is held fits into the buffer in every state, and every pass is in range. -/
def KeepsBooks (M : Machine State Event Output) (size : ℕ) (held : State → ℕ)
    (passes : State → Event → List Pass) (first : State) : Prop :=
  ∀ taken last, M.Run first taken last →
    Throughout (fun _ s => held s ≤ size) taken last ∧
      ∀ τ ∈ taken, ∀ pass ∈ passes τ.source τ.event, pass.InRange size

/-- **The rule of the books**: what one step keeps, every run does. -/
theorem keepsBooks_of_step {size : ℕ} {held : State → ℕ}
    {passes : State → Event → List Pass} {first : State}
    (initial : held first ≤ size)
    (step : ∀ τ, M.Takes τ → held τ.source ≤ size →
      held τ.target ≤ size ∧ ∀ pass ∈ passes τ.source τ.event, pass.InRange size) :
    M.KeepsBooks size held passes first := by
  intro taken last run
  have along : Throughout (fun _ s => held s ≤ size) taken last :=
    run.invariant (fun _ s => held s ≤ size) initial
      fun _ τ takes before => (step τ takes before).1
  refine ⟨along, fun τ member => ?_⟩
  obtain ⟨past, rest, split⟩ := List.mem_iff_append.mp member
  exact (step τ (run.takes τ member) (along.2 past τ rest split)).2

end Machine

end Foundations

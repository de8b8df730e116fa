import Mathlib.Data.List.Pairwise
import Mathlib.Data.List.Perm.Basic

/-!
# Rows in the order of their deadlines

Rows with a deadline each are kept in order, and of two with the same deadline the one that came
first stands first (`insertDue`). What such a list holds is told by the rows in the order in which
they came, in any list that has the same rows for each deadline in the same order (`Agrees`): so far
as that goes inserting is appending (`Agrees.insert`), and what is due first stands at the front
(`Agrees.head`).
-/

set_option autoImplicit false

namespace Foundations

variable {α : Type*} {rows armed : List (α × ℕ)}

/-- A row goes in before the first one with a later deadline. -/
def insertDue (row : α × ℕ) : List (α × ℕ) → List (α × ℕ)
  | [] => [row]
  | first :: rest => if row.2 < first.2 then row :: first :: rest else first :: insertDue row rest

/-- The rows of one deadline. -/
def dueAt (deadline : ℕ) (rows : List (α × ℕ)) : List (α × ℕ) :=
  rows.filter (·.2 = deadline)

@[simp] theorem mem_dueAt {deadline : ℕ} {row : α × ℕ} :
    row ∈ dueAt deadline rows ↔ row ∈ rows ∧ row.2 = deadline := by
  simp [dueAt]

theorem dueAt_append (deadline : ℕ) (rows more : List (α × ℕ)) :
    dueAt deadline (rows ++ more) = dueAt deadline rows ++ dueAt deadline more :=
  List.filter_append rows more

theorem insertDue_perm (row : α × ℕ) (rows : List (α × ℕ)) :
    (insertDue row rows).Perm (row :: rows) := by
  induction rows with
  | nil => exact .refl _
  | cons first rest ih =>
      unfold insertDue
      split
      · exact .refl _
      · exact (ih.cons first).trans (.swap row first rest)

/-- Earlier deadlines first. -/
abbrev Ordered (rows : List (α × ℕ)) : Prop := rows.Pairwise (·.2 ≤ ·.2)

theorem ordered_insertDue (row : α × ℕ) (ordered : Ordered rows) :
    Ordered (insertDue row rows) := by
  induction rows with
  | nil => exact List.pairwise_singleton _ row
  | cons first rest ih =>
      obtain ⟨later, ordered'⟩ := List.pairwise_cons.mp ordered
      unfold insertDue
      split
      · rename_i before
        refine List.pairwise_cons.mpr ⟨fun other member => ?_, ordered⟩
        rcases List.mem_cons.mp member with rfl | behind
        · exact Nat.le_of_lt before
        · exact Nat.le_trans (Nat.le_of_lt before) (later other behind)
      · rename_i behind
        refine List.pairwise_cons.mpr ⟨fun other member => ?_, ih ordered'⟩
        rcases List.mem_cons.mp ((insertDue_perm row rest).mem_iff.mp member) with rfl | old
        · exact Nat.le_of_not_lt behind
        · exact later other old

/-- Among those of its deadline the row is the last one. -/
theorem dueAt_insertDue (deadline : ℕ) (row : α × ℕ) (ordered : Ordered rows) :
    dueAt deadline (insertDue row rows) = dueAt deadline (rows ++ [row]) := by
  induction rows with
  | nil => rfl
  | cons first rest ih =>
      obtain ⟨later, ordered'⟩ := List.pairwise_cons.mp ordered
      unfold insertDue
      split
      · rename_i before
        by_cases here : row.2 = deadline
        · -- all that follows is later
          have none_ : dueAt deadline (first :: rest) = [] := by
            refine List.filter_eq_nil_iff.mpr fun other member => ?_
            rcases List.mem_cons.mp member with rfl | behind
            · simp
              omega
            · have := later other behind
              simp
              omega
          rw [dueAt_append, none_]
          simp only [dueAt, List.filter_cons] at none_ ⊢
          rw [none_]
          simp [here]
        · rw [dueAt_append]
          simp [dueAt, List.filter_cons, here]
      · have same := ih ordered'
        simp only [dueAt, List.cons_append, List.filter_cons] at same ⊢
        rw [same]

/-- The same rows for each deadline, in the same order; and the first list is in order. -/
structure Agrees (rows armed : List (α × ℕ)) : Prop where
  ordered : Ordered rows
  same : ∀ deadline, dueAt deadline rows = dueAt deadline armed

namespace Agrees

theorem nil : Agrees ([] : List (α × ℕ)) [] := ⟨.nil, fun _ => rfl⟩

/-- All rows are in both. -/
theorem perm (agrees : Agrees rows armed) : rows.Perm armed := by
  classical
  refine List.perm_iff_count.mpr fun row => ?_
  have both := congrArg (List.count row) (agrees.same row.2)
  rwa [dueAt, dueAt, List.count_filter (by simp), List.count_filter (by simp)] at both

theorem mem_iff (agrees : Agrees rows armed) {row : α × ℕ} : row ∈ rows ↔ row ∈ armed :=
  agrees.perm.mem_iff

/-- A row that is inserted comes behind those that came before. -/
theorem insert (agrees : Agrees rows armed) (row : α × ℕ) :
    Agrees (insertDue row rows) (armed ++ [row]) where
  ordered := ordered_insertDue row agrees.ordered
  same deadline := by
    rw [dueAt_insertDue deadline row agrees.ordered, dueAt_append, dueAt_append, agrees.same]

/-- Rows are taken out of both. -/
theorem filter (agrees : Agrees rows armed) (keep : α × ℕ → Bool) :
    Agrees (rows.filter keep) (armed.filter keep) where
  ordered := agrees.ordered.filter keep
  same deadline := by
    have both := congrArg (List.filter keep) (agrees.same deadline)
    simp only [dueAt, List.filter_filter] at both ⊢
    simpa only [Bool.and_comm] using both

/-- What is due at one time may stand in front of the rest. -/
theorem due_first (agrees : Agrees rows armed) (deadline : ℕ) :
    Agrees rows (dueAt deadline armed ++ armed.filter fun row => row.2 ≠ deadline) where
  ordered := agrees.ordered
  same other := by
    rw [agrees.same, dueAt_append]
    by_cases here : other = deadline
    · subst here
      have none_ : dueAt other (armed.filter fun row => row.2 ≠ other) = [] :=
        List.filter_eq_nil_iff.mpr fun row member => by simpa using (List.mem_filter.mp member).2
      rw [none_, List.append_nil, dueAt, dueAt, List.filter_filter]
      simp
    · have none_ : dueAt other (dueAt deadline armed) = [] :=
        List.filter_eq_nil_iff.mpr fun row member => by
          have at_ := (mem_dueAt.mp member).2
          simpa [at_] using Ne.symm here
      rw [none_, List.nil_append, dueAt, dueAt, List.filter_filter]
      refine List.filter_congr fun row _ => ?_
      by_cases at_ : row.2 = other
      · simp [at_, here]
      · simp [at_]

/-- **The first row** that is due at the earliest time stands at the front. -/
theorem head {row : α × ℕ} {more : List (α × ℕ)} (agrees : Agrees rows (row :: more))
    (first : ∀ other ∈ more, row.2 ≤ other.2) : ∃ rest, rows = row :: rest ∧ Agrees rest more := by
  have front := agrees.same row.2
  rw [dueAt, dueAt, List.filter_cons_of_pos (by simp)] at front
  cases rows with
  | nil => cases front
  | cons head rest =>
      obtain ⟨later, ordered⟩ := List.pairwise_cons.mp agrees.ordered
      -- the head is not later than the row, which is in the list, and not earlier
      have member : row ∈ head :: rest := agrees.mem_iff.mpr List.mem_cons_self
      have least : head.2 ≤ row.2 := by
        rcases List.mem_cons.mp member with rfl | behind
        · exact Nat.le_refl _
        · exact later row behind
      have most : row.2 ≤ head.2 := by
        rcases List.mem_cons.mp (agrees.mem_iff.mp List.mem_cons_self) with rfl | behind
        · exact Nat.le_refl _
        · exact first head behind
      have at_ : head.2 = row.2 := Nat.le_antisymm least most
      rw [List.filter_cons_of_pos (by simpa using at_)] at front
      obtain ⟨rfl, tails⟩ := List.cons.inj front
      refine ⟨rest, rfl, ordered, fun deadline => ?_⟩
      have whole := agrees.same deadline
      simp only [dueAt, List.filter_cons] at whole
      split at whole
      · exact (List.cons.inj whole).2
      · exact whole

end Agrees

end Foundations

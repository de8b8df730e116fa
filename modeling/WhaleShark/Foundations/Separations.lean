import Mathlib.Data.List.Basic

/-!
# One thing between any two of another

In a list, between any two members that satisfy `A` there is one that satisfies `B`
(`Separated A B`). Seen from its end, a list is clear when a member that satisfies `B` stands behind
each that satisfies `A` (`Cleared A B`), and a list is separated exactly if it is clear wherever a
member that satisfies `A` comes (`separated_iff`). Whether a list is clear is decided member by
member (`cleared_concat`), so that it can be carried along a run.
-/

set_option autoImplicit false

namespace Foundations

variable {α : Type*}

/-- Where the last member of a list goes when the list is split at a member. -/
theorem concat_eq_append_cons_iff {front before after : List α} {last a : α} :
    front ++ [last] = before ++ a :: after ↔
      (before = front ∧ a = last ∧ after = []) ∨
        ∃ rest, after = rest ++ [last] ∧ front = before ++ a :: rest := by
  constructor
  · intro split
    rcases List.eq_nil_or_concat after with rfl | ⟨rest, x, rfl⟩
    · obtain ⟨rfl, same⟩ := List.append_inj' split rfl
      exact .inl ⟨rfl, (List.singleton_inj.mp same).symm, rfl⟩
    · rw [List.concat_eq_append, ← List.cons_append, ← List.append_assoc] at split
      obtain ⟨rfl, same⟩ := List.append_inj' split rfl
      exact .inr ⟨rest, by rw [List.concat_eq_append, List.singleton_inj.mp same], rfl⟩
  · rintro (⟨rfl, rfl, rfl⟩ | ⟨rest, rfl, rfl⟩)
    · rfl
    · simp

/-- What is said of each member and those before it, said by positions. -/
theorem forall_split_iff {P : List α → α → Prop} {taken : List α} :
    (∀ past x rest, taken = past ++ x :: rest → P past x) ↔
      ∀ (i : ℕ) (inside : i < taken.length), P (taken.take i) taken[i] := by
  constructor
  · intro each i inside
    refine each (taken.take i) taken[i] (taken.drop (i + 1)) ?_
    rw [List.getElem_cons_drop, List.take_append_drop]
  · rintro each past x rest rfl
    simpa using each past.length (by simp)

variable (A B : α → Prop)

/-- A `B` stands behind each `A`. -/
def Cleared (past : List α) : Prop :=
  ∀ before a after, past = before ++ a :: after → A a → ∃ b ∈ after, B b

/-- Between any two `A` stands a `B`. -/
def Separated (taken : List α) : Prop :=
  ∀ before a between a' after, taken = before ++ a :: (between ++ a' :: after) → A a → A a' →
    ∃ b ∈ between, B b

variable {A B}

theorem cleared_nil : Cleared A B [] := by
  intro before a after split
  simp at split

theorem cleared_concat {past : List α} {x : α} :
    Cleared A B (past ++ [x]) ↔ ¬ A x ∧ (Cleared A B past ∨ B x) := by
  constructor
  · intro cleared
    refine ⟨fun here => ?_, or_iff_not_imp_right.mpr fun not_here before a after split first => ?_⟩
    · obtain ⟨b, member, -⟩ := cleared past x [] rfl here
      cases member
    · obtain ⟨b, member, found⟩ := cleared before a (after ++ [x]) (by rw [split]; simp) first
      rcases List.mem_append.mp member with earlier | last
      · exact ⟨b, earlier, found⟩
      · exact absurd (List.mem_singleton.mp last ▸ found) not_here
  · rintro ⟨none_, clear⟩ before a after split first
    rcases concat_eq_append_cons_iff.mp split with ⟨-, rfl, -⟩ | ⟨rest, rfl, rfl⟩
    · exact absurd first none_
    · rcases clear with before_ | here
      · obtain ⟨b, member, found⟩ := before_ before a rest rfl first
        exact ⟨b, List.mem_append_left _ member, found⟩
      · exact ⟨x, by simp, here⟩

/-- **A list is separated exactly if it is clear wherever an `A` comes.** -/
theorem separated_iff {taken : List α} :
    Separated A B taken ↔ ∀ past x rest, taken = past ++ x :: rest → A x → Cleared A B past := by
  constructor
  · intro separated past x rest split here before a after earlier first
    refine separated before a after x rest ?_ first here
    rw [split, earlier]
    simp
  · intro clear before a between a' after split first second
    refine clear (before ++ a :: between) a' after ?_ second before a between rfl first
    rw [split]
    simp

end Foundations

import Mathlib.Data.List.Basic

/-!
# Escaped strings

A string is escaped when some of its symbols, and all the special ones, have an escape symbol in
front of them (`Escapes`). The escape symbol is special itself, so that an escaped string can be read
in one way only: what is escaped in front may be taken away (`Escapes.append_iff`), and an escaped
beginning is that of a beginning (`Escapes.of_prefix`). A string with something behind it is its own
escaped form only if the two end in as many escape symbols, and no other symbol is special
(`escapes_self_append_iff`).
-/

set_option autoImplicit false

namespace Foundations

variable {α : Type*}

/-- The second string is the first one with escape symbols in front of some symbols, and of all
special ones. -/
inductive Escapes (esc : α) (special : α → Prop) : List α → List α → Prop where
  | nil : Escapes esc special [] []
  | plain {a : α} {s out : List α} (ordinary : ¬ special a) (rest : Escapes esc special s out) :
      Escapes esc special (a :: s) (a :: out)
  | escaped {a : α} {s out : List α} (rest : Escapes esc special s out) :
      Escapes esc special (a :: s) (esc :: a :: out)

variable {esc : α} {special : α → Prop} {s t out more : List α}

theorem Escapes.length_le (escapes : Escapes esc special s out) : s.length ≤ out.length := by
  induction escapes with
  | nil => exact Nat.le_refl _
  | plain _ _ ih =>
      rw [List.length_cons, List.length_cons]
      omega
  | escaped _ ih =>
      rw [List.length_cons, List.length_cons, List.length_cons]
      omega

theorem escapes_nil_iff : Escapes esc special [] out ↔ out = [] := by
  constructor
  · intro escapes
    cases escapes
    rfl
  · rintro rfl
    exact .nil

/-- A string without special symbols is its own escaped form. -/
theorem Escapes.refl (ordinary : ∀ a ∈ s, ¬ special a) : Escapes esc special s s := by
  induction s with
  | nil => exact .nil
  | cons a s ih =>
      obtain ⟨here, later⟩ := List.forall_mem_cons.mp ordinary
      exact .plain here (ih later)

/-- Every symbol may be escaped. -/
theorem escapes_replicate (k : ℕ) :
    Escapes esc special (List.replicate k esc) (List.replicate (k + k) esc) := by
  induction k with
  | zero => exact .nil
  | succ k ih =>
      have count : k + 1 + (k + 1) = k + k + 1 + 1 := by omega
      rw [count, List.replicate_succ, List.replicate_succ, List.replicate_succ]
      exact .escaped ih

section

variable (escSpecial : special esc)

include escSpecial

theorem escapes_plain_iff {a : α} (ordinary : ¬ special a) :
    Escapes esc special (a :: s) (a :: out) ↔ Escapes esc special s out := by
  constructor
  · intro escapes
    cases escapes with
    | plain _ rest => exact rest
    | escaped => exact absurd escSpecial ordinary
  · exact .plain ordinary

theorem escapes_escaped_iff {a : α} :
    Escapes esc special (a :: s) (esc :: a :: out) ↔ Escapes esc special s out := by
  constructor
  · intro escapes
    cases escapes with
    | plain ordinary => exact absurd escSpecial ordinary
    | escaped rest => exact rest
  · exact .escaped

/-- **What is escaped in front may be taken away.** -/
theorem Escapes.append_iff (escapes : Escapes esc special s out) :
    Escapes esc special (s ++ t) (out ++ more) ↔ Escapes esc special t more := by
  induction escapes with
  | nil => exact Iff.rfl
  | plain ordinary _ ih => exact (escapes_plain_iff escSpecial ordinary).trans ih
  | escaped _ ih => exact (escapes_escaped_iff escSpecial).trans ih

/-- **An escaped beginning is that of a beginning.** -/
theorem Escapes.of_prefix (first : Escapes esc special s out) (second : Escapes esc special t more)
    (begins : out <+: more) :
    ∃ s' out', t = s ++ s' ∧ more = out ++ out' ∧ Escapes esc special s' out' := by
  induction first generalizing t more with
  | nil => exact ⟨t, more, rfl, rfl, second⟩
  | plain ordinary _ ih =>
      cases second with
      | nil => simp at begins
      | plain _ rest =>
          obtain ⟨rfl, later⟩ := List.cons_prefix_cons.mp begins
          obtain ⟨s', out', rfl, rfl, behind⟩ := ih rest later
          exact ⟨s', out', rfl, rfl, behind⟩
      | escaped rest =>
          obtain ⟨rfl, -⟩ := List.cons_prefix_cons.mp begins
          exact absurd escSpecial ordinary
  | escaped _ ih =>
      cases second with
      | nil => simp at begins
      | plain ordinary rest =>
          obtain ⟨rfl, -⟩ := List.cons_prefix_cons.mp begins
          exact absurd escSpecial ordinary
      | escaped rest =>
          obtain ⟨-, begins⟩ := List.cons_prefix_cons.mp begins
          obtain ⟨rfl, later⟩ := List.cons_prefix_cons.mp begins
          obtain ⟨s', out', rfl, rfl, behind⟩ := ih rest later
          exact ⟨s', out', rfl, rfl, behind⟩

/-- Where the escaped form lags behind by escape symbols, there is nothing but escape symbols. -/
theorem Escapes.all_esc (escapes : Escapes esc special s out) {lag : ℕ} (some_ : 0 < lag)
    (same : List.replicate lag esc ++ out = s ++ t) :
    s = List.replicate s.length esc ∧ t = List.replicate (s.length + lag) esc := by
  induction escapes generalizing lag t with
  | nil => simpa using same.symm
  | @plain a s out ordinary _ _ =>
      obtain ⟨lag, rfl⟩ := Nat.exists_eq_succ_of_ne_zero (Nat.ne_of_gt some_)
      obtain ⟨rfl, -⟩ := List.cons.inj same
      exact absurd escSpecial ordinary
  | @escaped a s out rest ih =>
      obtain ⟨lag, rfl⟩ := Nat.exists_eq_succ_of_ne_zero (Nat.ne_of_gt some_)
      obtain ⟨rfl, tails⟩ := List.cons.inj same
      have behind : List.replicate lag esc ++ esc :: esc :: out = s ++ t := tails
      have on : List.replicate (lag + 1 + 1) esc ++ out = s ++ t := by
        rw [← behind]
        simp [List.replicate_succ', List.append_assoc]
      obtain ⟨all, ends⟩ := ih (Nat.succ_pos _) on
      refine ⟨?_, ?_⟩
      · rw [List.length_cons, List.replicate_succ, ← all]
      · rw [ends, List.length_cons]
        congr 1
        omega

/-- **When a string with something behind it is its own escaped form.** -/
theorem escapes_self_append_iff :
    Escapes esc special s (s ++ t) ↔
      ∃ k ordinary, s = ordinary ++ List.replicate k esc ∧ t = List.replicate k esc ∧
        ∀ a ∈ ordinary, ¬ special a := by
  constructor
  · intro escapes
    induction s with
    | nil => exact ⟨0, [], rfl, escapes_nil_iff.mp escapes, by simp⟩
    | cons a s ih =>
        by_cases here : special a
        · -- the first special symbol is an escape symbol, and the escaped form lags behind from there
          obtain ⟨out, rfl, behind, rest⟩ : ∃ out, a = esc ∧ s ++ t = esc :: out ∧
              Escapes esc special s out := by
            generalize whole : a :: s ++ t = all at escapes
            cases escapes with
            | plain ordinary => exact absurd here ordinary
            | escaped rest =>
                obtain ⟨rfl, behind⟩ := List.cons.inj whole
                exact ⟨_, rfl, behind, rest⟩
          obtain ⟨all, ends⟩ := rest.all_esc escSpecial Nat.zero_lt_one behind.symm
          refine ⟨s.length + 1, [], ?_, ends, by simp⟩
          rw [List.nil_append, List.replicate_succ, ← all]
        · obtain ⟨k, ordinary, rfl, rfl, none_⟩ := ih
            ((escapes_plain_iff escSpecial here).mp escapes)
          exact ⟨k, a :: ordinary, rfl, rfl, List.forall_mem_cons.mpr ⟨here, none_⟩⟩
  · rintro ⟨k, ordinary, rfl, rfl, none_⟩
    rw [List.append_assoc, (Escapes.refl none_).append_iff escSpecial, ← List.replicate_add]
    exact escapes_replicate k

end

end Foundations

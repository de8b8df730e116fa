import Mathlib.Data.List.Basic

/-!
# Lines that end in a symbol

A stream is a row of lines, each followed by the same symbol, and an unfinished line
(`InLines`). Every stream is so in one way only (`exists_inLines`, `InLines.unique`). Where more of a
stream arrives it continues the unfinished line (`InLines.append`), so that the lines of a stream are
those of its beginning and some more (`InLines.of_append`).
-/

set_option autoImplicit false

namespace Foundations

variable {α : Type*}

/-- The stream is these lines, each with the symbol behind it, and the rest of an unfinished one. -/
structure InLines (c : α) (stream : List α) (lines : List (List α)) (rest : List α) : Prop where
  split : stream = lines.flatMap (fun line => line ++ [c]) ++ rest
  whole : ∀ line ∈ lines, c ∉ line
  unfinished : c ∉ rest

namespace InLines

variable {c : α} {stream rest : List α} {lines : List (List α)}

theorem of_unfinished (unfinished : c ∉ rest) : InLines c rest [] rest :=
  ⟨rfl, by simp, unfinished⟩

/-- The unfinished line is the end of the stream. -/
theorem rest_eq_drop {consumed : ℕ} (all : InLines c stream lines rest)
    (count : consumed + rest.length = stream.length) : rest = stream.drop consumed := by
  have ending : rest <:+ stream := ⟨_, all.split.symm⟩
  rw [List.suffix_iff_eq_drop.mp ending, ← count, Nat.add_sub_cancel]

/-- A line in front of a stream. -/
theorem cons {line : List α} (whole : c ∉ line) (behind : InLines c stream lines rest) :
    InLines c (line ++ c :: stream) (line :: lines) rest := by
  refine ⟨by rw [behind.split]; simp, ?_, behind.unfinished⟩
  rintro first (_ | ⟨_, member⟩)
  · exact whole
  · exact behind.whole first member

theorem uncons {line : List α} (all : InLines c stream (line :: lines) rest) :
    ∃ behind, stream = line ++ c :: behind ∧ c ∉ line ∧ InLines c behind lines rest := by
  refine ⟨lines.flatMap (fun line => line ++ [c]) ++ rest, by rw [all.split]; simp,
    all.whole line List.mem_cons_self, rfl, fun other member => ?_, all.unfinished⟩
  exact all.whole other (List.mem_cons_of_mem _ member)

/-- Where the symbol stands first in a list, the list splits in one way only. -/
theorem split_unique {before before' after after' : List α} (first : c ∉ before)
    (first' : c ∉ before') (same : before ++ c :: after = before' ++ c :: after') :
    before = before' ∧ after = after' := by
  rcases List.append_eq_append_iff.mp same with ⟨more, rfl, behind⟩ | ⟨more, rfl, behind⟩ <;>
    cases more with
    | nil =>
        obtain ⟨-, rfl⟩ := List.cons.inj behind
        exact ⟨by simp, rfl⟩
    | cons a more =>
        obtain ⟨rfl, -⟩ := List.cons.inj behind
        simp at first first'

/-- **A stream has its lines in one way only.** -/
theorem unique {lines' : List (List α)} {rest' : List α} (one : InLines c stream lines rest)
    (two : InLines c stream lines' rest') : lines = lines' ∧ rest = rest' := by
  induction lines generalizing stream lines' with
  | nil =>
      have unfinished : c ∉ stream := by
        rw [one.split]
        exact one.unfinished
      cases lines' with
      | nil => exact ⟨rfl, one.split.symm.trans two.split⟩
      | cons line lines' =>
          obtain ⟨behind, rfl, -⟩ := two.uncons
          simp at unfinished
  | cons line lines ih =>
      obtain ⟨behind, rfl, whole, later⟩ := one.uncons
      cases lines' with
      | nil =>
          have unfinished : c ∉ line ++ c :: behind := by
            rw [two.split]
            exact two.unfinished
          simp at unfinished
      | cons line' lines' =>
          obtain ⟨behind', same, whole', later'⟩ := two.uncons
          obtain ⟨rfl, rfl⟩ := split_unique whole whole' same
          obtain ⟨rfl, rfl⟩ := ih later later'
          exact ⟨rfl, rfl⟩

/-- **What arrives behind a stream continues the unfinished line.** -/
theorem append {more : List (List α)} {arrived rest' : List α} (before : InLines c stream lines rest)
    (after : InLines c (rest ++ arrived) more rest') :
    InLines c (stream ++ arrived) (lines ++ more) rest' := by
  refine ⟨?_, ?_, after.unfinished⟩
  · rw [before.split, List.append_assoc, after.split, List.flatMap_append, List.append_assoc]
  · intro line member
    rcases List.mem_append.mp member with old | new
    · exact before.whole line old
    · exact after.whole line new

/-- The unfinished line is continued by the first line that ends. -/
theorem prefix_first {line arrived : List α} (unfinished : c ∉ stream)
    (all : InLines c (stream ++ arrived) (line :: lines) rest) : stream <+: line := by
  obtain ⟨behind, same, -⟩ := all.uncons
  rcases List.append_eq_append_iff.mp same with ⟨more, rfl, -⟩ | ⟨more, rfl, ending⟩
  · exact List.prefix_append _ _
  · cases more with
    | nil => simp
    | cons a more =>
        obtain ⟨rfl, -⟩ := List.cons.inj ending
        simp at unfinished

end InLines

/-- **Every stream has its lines.** -/
theorem exists_inLines [DecidableEq α] (c : α) (stream : List α) :
    ∃ lines rest, InLines c stream lines rest := by
  induction stream with
  | nil => exact ⟨[], [], .of_unfinished List.not_mem_nil⟩
  | cons a stream ih =>
      obtain ⟨lines, rest, all⟩ := ih
      by_cases ends : a = c
      · subst ends
        exact ⟨[] :: lines, rest, .cons List.not_mem_nil all⟩
      · cases lines with
        | nil =>
            refine ⟨[], a :: rest, ⟨by rw [all.split]; rfl, by simp, ?_⟩⟩
            simpa [Ne.symm ends] using all.unfinished
        | cons line lines =>
            obtain ⟨behind, rfl, whole, later⟩ := all.uncons
            have longer : c ∉ a :: line := by simpa [Ne.symm ends] using whole
            exact ⟨(a :: line) :: lines, rest, .cons longer later⟩

/-- The lines of a beginning are lines of the whole. -/
theorem InLines.of_append [DecidableEq α] {c : α} {stream arrived rest : List α}
    {lines : List (List α)} (all : InLines c (stream ++ arrived) lines rest) :
    ∃ first more rest', lines = first ++ more ∧ InLines c stream first rest' ∧
      InLines c (rest' ++ arrived) more rest := by
  obtain ⟨first, rest', before⟩ := exists_inLines c stream
  obtain ⟨more, rest'', after⟩ := exists_inLines c (rest' ++ arrived)
  obtain ⟨rfl, rfl⟩ := all.unique (before.append after)
  exact ⟨first, more, rest', rfl, before, after⟩

end Foundations

import Mathlib.Data.List.Infix
import Mathlib.Data.List.TakeWhile

/-!
# Lines that end in a pair of symbols

A stream is a row of lines, each followed by the same two symbols. `splitLine` takes the first
line off what has arrived of it, as soon as both symbols are there: it finds the first place where
the pair stands (`eq_of_splitLine`, `splitLine_append`), and finds nothing only where the pair
stands nowhere (`splitLine_eq_none_iff`).

A reader may look for a line from the first symbol on with which an answer can begin. What it then
finds in a stream is the end of a line of the stream, and the lines that it passed over hold
no such symbol (`line_of_stream`); and where it finds nothing no line that arrived whole holds
one (`quiet_of_stream`).
-/

set_option autoImplicit false

namespace Foundations

variable {α : Type*} [DecidableEq α] (c d : α)

/-- The first line, and what is behind the pair that ends it. -/
def splitLine : List α → Option (List α × List α)
  | [] => none
  | [_] => none
  | a :: b :: rest =>
      if a = c ∧ b = d then some ([], rest)
      else (splitLine (b :: rest)).map fun (line, behind) => (a :: line, behind)

/-- The pair stands nowhere. -/
def Unbroken (l : List α) : Prop := ¬ [c, d] <:+: l

/-- The stream of these lines. -/
def joinLines (lines : List (List α)) : List α := lines.flatMap fun line => line ++ [c, d]

variable {c d}

omit [DecidableEq α] in
theorem unbroken_nil : Unbroken c d [] := by
  intro broken
  simpa using broken.length_le

omit [DecidableEq α] in
theorem unbroken_singleton (a : α) : Unbroken c d [a] := by
  intro broken
  simpa using broken.length_le

omit [DecidableEq α] in
theorem unbroken_cons_cons (a b : α) (rest : List α) :
    Unbroken c d (a :: b :: rest) ↔ ¬ (a = c ∧ b = d) ∧ Unbroken c d (b :: rest) := by
  simp only [Unbroken, List.infix_cons_iff, List.cons_prefix_cons, List.nil_prefix, and_true,
    not_or, eq_comm]

omit [DecidableEq α] in
/-- The pair stands nowhere exactly if it stands at no position. -/
theorem unbroken_iff_getElem? (l : List α) :
    Unbroken c d l ↔ ∀ i, ¬ (l[i]? = some c ∧ l[i + 1]? = some d) := by
  induction l with
  | nil => exact iff_of_true unbroken_nil (by simp)
  | cons a l ih =>
      cases l with
      | nil => exact iff_of_true (unbroken_singleton a) (by simp)
      | cons b rest =>
          rw [unbroken_cons_cons, ih]
          constructor
          · rintro ⟨here, later⟩ (_ | i)
            · simpa using here
            · simpa using later i
          · intro all
            exact ⟨by simpa using all 0, fun i => by simpa using all (i + 1)⟩

/-! ## Taking off a line -/

theorem splitLine_append (apart : c ≠ d) (behind : List α) :
    ∀ {line : List α}, Unbroken c d line →
      splitLine c d (line ++ c :: d :: behind) = some (line, behind)
  | [], _ => by simp [splitLine]
  | [a], _ => by simp [splitLine, apart]
  | a :: b :: line, whole => by
      rw [unbroken_cons_cons] at whole
      have rest := splitLine_append apart behind whole.2
      rw [List.cons_append] at rest
      simp [splitLine, whole.1, rest]

theorem eq_of_splitLine : ∀ {l line behind : List α}, splitLine c d l = some (line, behind) →
    l = line ++ c :: d :: behind ∧ Unbroken c d line
  | [], _, _, found => by simp [splitLine] at found
  | [_], _, _, found => by simp [splitLine] at found
  | a :: b :: rest, line, behind, found => by
      rw [splitLine] at found
      split at found
      · rename_i here
        obtain ⟨rfl, rfl⟩ := here
        cases found
        exact ⟨rfl, unbroken_nil⟩
      · rename_i elsewhere
        obtain ⟨⟨line', behind'⟩, later, same⟩ := Option.map_eq_some_iff.mp found
        cases same
        obtain ⟨split_, whole⟩ := eq_of_splitLine later
        refine ⟨by rw [split_]; rfl, ?_⟩
        cases line' with
        | nil => exact unbroken_singleton a
        | cons b' line' =>
            obtain ⟨rfl, -⟩ := List.cons.inj split_
            exact (unbroken_cons_cons _ _ _).mpr ⟨elsewhere, whole⟩

theorem splitLine_eq_none_iff : ∀ {l : List α}, splitLine c d l = none ↔ Unbroken c d l
  | [] => iff_of_true rfl unbroken_nil
  | [a] => iff_of_true rfl (unbroken_singleton a)
  | a :: b :: rest => by
      rw [splitLine, unbroken_cons_cons, ← splitLine_eq_none_iff (l := b :: rest)]
      split
      · rename_i here
        simp [here]
      · rename_i elsewhere
        simp [elsewhere]

/-! ## Streams -/

omit [DecidableEq α] in
@[simp] theorem joinLines_nil : joinLines c d [] = [] := rfl

omit [DecidableEq α] in
@[simp] theorem joinLines_cons (line : List α) (lines : List (List α)) :
    joinLines c d (line :: lines) = line ++ c :: d :: joinLines c d lines := by
  simp [joinLines]

omit [DecidableEq α] in
theorem joinLines_append (done todo : List (List α)) :
    joinLines c d (done ++ todo) = joinLines c d done ++ joinLines c d todo := by
  simp [joinLines]

omit [DecidableEq α] in
/-- The first symbol of the pair alone ends nothing. -/
theorem unbroken_concat (apart : c ≠ d) {line : List α} (whole : Unbroken c d line) :
    Unbroken c d (line ++ [c]) := by
  rw [unbroken_iff_getElem?] at whole ⊢
  rintro i ⟨first, second⟩
  rcases Nat.lt_or_ge (i + 1) line.length with inside | beyond
  · rw [List.getElem?_append_left (by omega)] at first
    rw [List.getElem?_append_left inside] at second
    exact whole i ⟨first, second⟩
  · rw [List.getElem?_append_right beyond, List.getElem?_singleton] at second
    split at second
    · exact apart (Option.some.inj second)
    · cases second

omit [DecidableEq α] in
/-- What has arrived of a stream is unbroken, or its first line whole and some of the others. -/
theorem prefix_joinLines_cons (apart : c ≠ d) {l line : List α} {lines : List (List α)}
    (whole : Unbroken c d line) (arrived : l <+: joinLines c d (line :: lines)) :
    Unbroken c d l ∨ ∃ rest, l = line ++ c :: d :: rest ∧ rest <+: joinLines c d lines := by
  obtain ⟨later, both⟩ := arrived
  rw [joinLines_cons] at both
  rcases List.append_eq_append_iff.mp both with ⟨more, rfl, -⟩ | ⟨more, rfl, ending⟩
  · exact .inl fun broken => whole (broken.trans (List.infix_append' [] l more))
  · match more, ending with
    | [], _ => exact .inl (by simpa using whole)
    | [a], ending =>
        obtain ⟨rfl, -⟩ := List.cons.inj ending
        exact .inl (unbroken_concat apart whole)
    | a :: b :: rest, ending =>
        simp only [List.cons_append, List.cons.injEq] at ending
        obtain ⟨rfl, rfl, ending⟩ := ending
        exact .inr ⟨rest, rfl, later, ending.symm⟩

/-! ## A reader that looks for a beginning -/

section Beginning

variable {begins : α → Bool}

/-- What stands before the beginning of an answer. -/
def fromBeginning (begins : α → Bool) (l : List α) : List α := l.dropWhile fun a => !begins a

omit [DecidableEq α] in
theorem fromBeginning_append_of_quiet {quiet : List α} (none_ : fromBeginning begins quiet = [])
    (l : List α) : fromBeginning begins (quiet ++ l) = fromBeginning begins l := by
  have all : ∀ a ∈ quiet, (!begins a) = true := List.dropWhile_eq_nil_iff.mp none_
  simp only [fromBeginning, List.dropWhile_append_of_pos all]

omit [DecidableEq α] in
theorem fromBeginning_append_of_begun {l : List α} (some_ : fromBeginning begins l ≠ [])
    (rest : List α) : fromBeginning begins (l ++ rest) = fromBeginning begins l ++ rest := by
  simp only [fromBeginning, List.dropWhile_append] at some_ ⊢
  rw [if_neg (by simpa using some_)]

omit [DecidableEq α] in
theorem fromBeginning_suffix (l : List α) : fromBeginning begins l <:+ l :=
  List.dropWhile_suffix _

omit [DecidableEq α] in
theorem split_of_fromBeginning {l rest : List α} {a : α}
    (found : fromBeginning begins l = a :: rest) :
    ∃ quiet, l = quiet ++ a :: rest ∧ (∀ q ∈ quiet, begins q = false) ∧ begins a = true := by
  refine ⟨l.takeWhile fun a => !begins a, ?_, ?_, ?_⟩
  · rw [← found, fromBeginning, List.takeWhile_append_dropWhile]
  · intro q member
    simpa using List.mem_takeWhile_imp member
  · have head := List.head?_dropWhile_not (fun a => !begins a) l
    rw [← fromBeginning, found] at head
    simpa using head

omit [DecidableEq α] in
/-- The lines that end before anything begins are passed over. -/
theorem fromBeginning_joinLines_cons (first : begins c = false) (second : begins d = false)
    {line : List α} (none_ : fromBeginning begins line = []) (rest : List α) :
    fromBeginning begins (line ++ c :: d :: rest) = fromBeginning begins rest := by
  rw [fromBeginning_append_of_quiet none_]
  simp [fromBeginning, first, second]

variable (apart : c ≠ d) (first : begins c = false) (second : begins d = false)

include apart first second

/-- **A line that the reader finds is a line of the stream.** The lines before it hold no
beginning, and what is behind it is behind it in the stream. -/
theorem line_of_stream {line behind : List α} :
    ∀ {lines : List (List α)} {l : List α}, (∀ line ∈ lines, Unbroken c d line) →
      l <+: joinLines c d lines →
      splitLine c d (fromBeginning begins l) = some (line, behind) →
      ∃ quiet whole later, lines = quiet ++ whole :: later ∧
        l = joinLines c d (quiet ++ [whole]) ++ behind ∧
        (∀ q ∈ quiet, fromBeginning begins q = []) ∧ fromBeginning begins whole = line
  | [], l, _, arrived, found => by
      have empty : l = [] := List.prefix_nil.mp arrived
      simp [empty, fromBeginning, splitLine] at found
  | head :: lines, l, unbroken, arrived, found => by
      have wholeHead : Unbroken c d head := unbroken head (by simp)
      rcases prefix_joinLines_cons apart wholeHead arrived with short | ⟨rest, rfl, later⟩
      · have broken : Unbroken c d (fromBeginning begins l) :=
          fun pair => short (pair.trans (fromBeginning_suffix l).isInfix)
        rw [splitLine_eq_none_iff.mpr broken] at found
        cases found
      · by_cases none_ : fromBeginning begins head = []
        · rw [fromBeginning_joinLines_cons first second none_] at found
          obtain ⟨quiet, whole, others, rfl, rfl, passed, same⟩ :=
            line_of_stream (fun q member => unbroken q (by simp [member])) later found
          refine ⟨head :: quiet, whole, others, rfl, by simp, ?_, same⟩
          rintro q (_ | ⟨_, member⟩)
          · exact none_
          · exact passed q member
        · have own : Unbroken c d (fromBeginning begins head) :=
            fun pair => wholeHead (pair.trans (fromBeginning_suffix head).isInfix)
          rw [fromBeginning_append_of_begun none_, splitLine_append apart rest own] at found
          cases found
          exact ⟨[], head, lines, rfl, by simp, by simp, rfl⟩

/-- Where the reader finds nothing, no line that arrived whole holds a beginning. -/
theorem quiet_of_stream :
    ∀ {lines : List (List α)}, (∀ line ∈ lines, Unbroken c d line) →
      splitLine c d (fromBeginning begins (joinLines c d lines)) = none →
      ∀ line ∈ lines, fromBeginning begins line = []
  | [], _, _ => by simp
  | head :: lines, unbroken, nothing => by
      have wholeHead : Unbroken c d head := unbroken head (by simp)
      rw [joinLines_cons] at nothing
      by_cases none_ : fromBeginning begins head = []
      · rw [fromBeginning_joinLines_cons first second none_] at nothing
        have later := quiet_of_stream (fun q member => unbroken q (by simp [member])) nothing
        rintro line (_ | ⟨_, member⟩)
        · exact none_
        · exact later line member
      · have own : Unbroken c d (fromBeginning begins head) :=
          fun pair => wholeHead (pair.trans (fromBeginning_suffix head).isInfix)
        rw [fromBeginning_append_of_begun none_, splitLine_append apart _ own] at nothing
        cases nothing

end Beginning

end Foundations

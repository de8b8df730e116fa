import Mathlib.Data.List.TakeWhile
import WhaleShark.Foundations.Rescan

/-!
# Pieces of fixed width that begin at a mark

A search for records of a fixed width goes to the first mark, takes `width` values from there,
and starts again behind them. `pieceStarts` lists the suffixes of the input at which such a
piece begins; all but the last are complete.

The search may be interrupted: what has to be kept is the suffix of the last piece, and a
complete piece is good or bad for ever (`pieceScanner_resumes`). So the pieces found do not
depend on how the input was cut.
-/

set_option autoImplicit false

namespace Foundations

variable {α : Type*} (isMark : α → Bool) (width : ℕ)

/-- The suffixes at which a piece begins, with at most `fuel` pieces. -/
def pieceStartsWithin : ℕ → List α → List (List α)
  | 0, _ => []
  | fuel + 1, d =>
      match d.dropWhile (fun a => !isMark a) with
      | [] => []
      | a :: rest => (a :: rest) :: pieceStartsWithin fuel ((a :: rest).drop width)

/-- The suffixes of the input at which a piece begins. -/
def pieceStarts (d : List α) : List (List α) := pieceStartsWithin isMark width d.length d

/-- What has to be kept: the suffix of the last piece, or everything when no piece began. -/
def keepLastPiece (d : List α) : List α := ((pieceStarts isMark width d).getLast?).getD d

/-- The suffix begins with a complete piece that is good. -/
def goodPiece (good : List α → Bool) (suffix : List α) : Bool :=
  decide (width ≤ suffix.length) && good (suffix.take width)

/-- The search as a scanner that reports whether some complete piece is good. -/
def pieceScanner (good : List α → Bool) : Scanner α Bool where
  keep := keepLastPiece isMark width
  report d := (pieceStarts isMark width d).any (goodPiece width good)
  nothing := false
  join := (· || ·)

variable {isMark width}

/-! ## Unfolding the search -/

theorem length_dropWhile_le (p : α → Bool) (d : List α) : (d.dropWhile p).length ≤ d.length :=
  (List.dropWhile_suffix p).length_le

/-- More fuel than values changes nothing. -/
theorem pieceStartsWithin_enough (positive : 0 < width) :
    ∀ (fuel : ℕ) (d : List α), d.length ≤ fuel →
      pieceStartsWithin isMark width fuel d = pieceStarts isMark width d := by
  have agree : ∀ (m n : ℕ) (d : List α), d.length ≤ m → d.length ≤ n →
      pieceStartsWithin isMark width m d = pieceStartsWithin isMark width n d := by
    intro m
    induction m with
    | zero =>
        intro n d short _
        obtain rfl : d = [] := List.length_eq_zero_iff.mp (by omega)
        cases n <;> simp [pieceStartsWithin]
    | succ m ih =>
        intro n d long long'
        cases n with
        | zero =>
            obtain rfl : d = [] := List.length_eq_zero_iff.mp (by omega)
            simp [pieceStartsWithin]
        | succ n =>
            have shorter := length_dropWhile_le (fun a => !isMark a) d
            simp only [pieceStartsWithin]
            cases found : d.dropWhile (fun a => !isMark a) with
            | nil => rfl
            | cons a rest =>
                rw [found, List.length_cons] at shorter
                have bound : ((a :: rest).drop width).length ≤ rest.length := by
                  simp only [List.length_drop, List.length_cons]
                  omega
                simp only [List.cons.injEq, true_and]
                exact ih n _ (by omega) (by omega)
  intro fuel d long
  exact agree fuel d.length d long (Nat.le_refl _)

theorem pieceStarts_eq (positive : 0 < width) (d : List α) :
    pieceStarts isMark width d =
      match d.dropWhile (fun a => !isMark a) with
      | [] => []
      | a :: rest => (a :: rest) :: pieceStarts isMark width ((a :: rest).drop width) := by
  rw [← pieceStartsWithin_enough positive (d.length + 1) d (by omega), pieceStartsWithin]
  have shorter := length_dropWhile_le (fun a => !isMark a) d
  cases found : d.dropWhile (fun a => !isMark a) with
  | nil => rfl
  | cons a rest =>
      rw [found, List.length_cons] at shorter
      have bound : ((a :: rest).drop width).length ≤ d.length := by
        simp only [List.length_drop, List.length_cons]
        omega
      simp only [pieceStartsWithin_enough positive d.length _ bound]

theorem pieceStarts_of_mark (positive : 0 < width) {a : α} (mark : isMark a = true)
    (rest : List α) :
    pieceStarts isMark width (a :: rest) =
      (a :: rest) :: pieceStarts isMark width ((a :: rest).drop width) := by
  rw [pieceStarts_eq positive, List.dropWhile_cons_of_neg (by simp [mark])]

theorem pieceStarts_of_no_mark (positive : 0 < width) {d : List α}
    (none_ : ∀ a ∈ d, isMark a = false) : pieceStarts isMark width d = [] := by
  have empty : d.dropWhile (fun a => !isMark a) = [] :=
    List.dropWhile_eq_nil_iff.mpr fun a member => by simp [none_ a member]
  rw [pieceStarts_eq positive, empty]

/-- Values that are no marks may stand in front. -/
theorem pieceStarts_append_of_no_mark (positive : 0 < width) {front : List α}
    (none_ : ∀ a ∈ front, isMark a = false) (d : List α) :
    pieceStarts isMark width (front ++ d) = pieceStarts isMark width d := by
  have skipped : (front ++ d).dropWhile (fun a => !isMark a) =
      d.dropWhile (fun a => !isMark a) := by
    induction front with
    | nil => rfl
    | cons a front ih =>
        rw [List.cons_append, List.dropWhile_cons_of_pos (by simp [none_ a (by simp)])]
        exact ih fun b member => none_ b (List.mem_cons_of_mem _ member)
  rw [pieceStarts_eq positive, skipped, ← pieceStarts_eq positive]

/-- An input either holds no mark or is a front without marks and a piece behind it. -/
theorem no_mark_or_split (isMark : α → Bool) (d : List α) :
    (∀ a ∈ d, isMark a = false) ∨
      ∃ front a rest, d = front ++ a :: rest ∧ (∀ b ∈ front, isMark b = false) ∧
        isMark a = true := by
  induction d with
  | nil => exact .inl (by simp)
  | cons b d ih =>
      cases mark : isMark b with
      | true => exact .inr ⟨[], b, d, rfl, by simp, mark⟩
      | false =>
          rcases ih with none_ | ⟨front, a, rest, rfl, none_, marked⟩
          · exact .inl (by simpa [mark] using none_)
          · exact .inr ⟨b :: front, a, rest, rfl, by simpa [mark] using none_, marked⟩

/-! ## The last piece -/

theorem keepLastPiece_of_last {d last : List α}
    (found : (pieceStarts isMark width d).getLast? = some last) :
    keepLastPiece isMark width d = last := by
  rw [keepLastPiece, found, Option.getD_some]

/-- An input that begins with a mark and is no longer than a piece is one piece. -/
theorem pieceStarts_of_short (positive : 0 < width) {a : α} (mark : isMark a = true)
    {rest : List α} (short : (a :: rest).length ≤ width) :
    pieceStarts isMark width (a :: rest) = [a :: rest] := by
  rw [pieceStarts_of_mark positive mark, List.drop_eq_nil_of_le short,
    pieceStarts_of_no_mark positive (by simp)]

/-- Behind a mark at the end no more than a piece is kept. -/
theorem keepLastPiece_concat_of_mark (positive : 0 < width) {a : α} (mark : isMark a = true)
    (d : List α) : pieceStarts isMark width (d ++ [a]) ≠ [] ∧
      (keepLastPiece isMark width (d ++ [a])).length ≤ width := by
  induction size : d.length using Nat.strongRecOn generalizing d with
  | _ n ih =>
    rcases no_mark_or_split isMark d with none_ | ⟨junk, b, rest, rfl, none_, begins⟩
    · have whole : pieceStarts isMark width (d ++ [a]) = [[a]] := by
        rw [pieceStarts_append_of_no_mark positive none_]
        exact pieceStarts_of_short positive mark positive
      refine ⟨by rw [whole]; exact List.cons_ne_nil _ _, ?_⟩
      rw [keepLastPiece_of_last (by rw [whole, List.getLast?_singleton])]
      exact positive
    · have whole : pieceStarts isMark width (junk ++ b :: rest ++ [a]) =
          pieceStarts isMark width (b :: (rest ++ [a])) := by
        rw [List.append_assoc, pieceStarts_append_of_no_mark positive none_, List.cons_append]
      rcases Nat.lt_or_ge (b :: rest).length width with short | long
      · -- the mark is within the piece at `b`
        have one : (b :: (rest ++ [a])).length ≤ width := by
          simp only [List.length_cons, List.length_append, List.length_nil] at short ⊢
          omega
        rw [pieceStarts_of_short positive begins one] at whole
        refine ⟨by rw [whole]; exact List.cons_ne_nil _ _, ?_⟩
        rw [keepLastPiece_of_last (by rw [whole, List.getLast?_singleton])]
        exact one
      · -- the mark is behind the piece at `b`
        have behind : (b :: (rest ++ [a])).drop width = (b :: rest).drop width ++ [a] := by
          rw [← List.cons_append, List.drop_append_of_le_length long]
        have shorter : ((b :: rest).drop width).length < n := by
          rw [← size]
          simp only [List.length_drop, List.length_append, List.length_cons]
          omega
        obtain ⟨begun, bound⟩ := ih _ shorter _ rfl
        rw [pieceStarts_of_mark positive begins, behind] at whole
        obtain ⟨last, found⟩ := Option.isSome_iff_exists.mp (List.getLast?_isSome.mpr begun)
        rw [keepLastPiece_of_last found] at bound
        refine ⟨by rw [whole]; exact List.cons_ne_nil _ _, ?_⟩
        rwa [keepLastPiece_of_last (by rw [whole, List.getLast?_cons, found, Option.getD_some])]

/-- Once a piece has begun, the last one is what is kept: it begins with a mark, it is a suffix
of the input, the pieces before it are complete, and it is where the search resumes. -/
theorem pieceStarts_resume (positive : 0 < width) (d : List α)
    (begun : pieceStarts isMark width d ≠ []) :
    ∃ front, pieceStarts isMark width d = front ++ [keepLastPiece isMark width d] ∧
      (∀ piece ∈ front, width ≤ piece.length) ∧
      keepLastPiece isMark width d <:+ d ∧
      (∃ a rest, keepLastPiece isMark width d = a :: rest ∧ isMark a = true) ∧
      ∀ chunk, pieceStarts isMark width (d ++ chunk) =
        front.map (· ++ chunk) ++
          pieceStarts isMark width (keepLastPiece isMark width d ++ chunk) := by
  induction size : d.length using Nat.strongRecOn generalizing d with
  | _ n ih =>
    rcases no_mark_or_split isMark d with none_ | ⟨junk, a, rest, rfl, none_, mark⟩
    · exact absurd (pieceStarts_of_no_mark positive none_) begun
    · have whole : pieceStarts isMark width (junk ++ a :: rest) =
          (a :: rest) :: pieceStarts isMark width ((a :: rest).drop width) := by
        rw [pieceStarts_append_of_no_mark positive none_, pieceStarts_of_mark positive mark]
      have longer (chunk : List α) : pieceStarts isMark width (junk ++ a :: rest ++ chunk) =
          pieceStarts isMark width (a :: rest ++ chunk) := by
        rw [List.append_assoc, pieceStarts_append_of_no_mark positive none_]
      by_cases more : pieceStarts isMark width ((a :: rest).drop width) = []
      · -- the piece at `a` is the last one
        have kept : keepLastPiece isMark width (junk ++ a :: rest) = a :: rest :=
          keepLastPiece_of_last (by rw [whole, more, List.getLast?_singleton])
        refine ⟨[], ?_, by simp, ?_, ⟨a, rest, kept, mark⟩, fun chunk => ?_⟩
        · rw [kept, whole, more, List.nil_append]
        · rw [kept]
          exact List.suffix_append junk (a :: rest)
        · rw [longer chunk, kept, List.map_nil, List.nil_append]
      · -- the piece at `a` is complete, and the search goes on behind it
        have shorter : ((a :: rest).drop width).length < n := by
          rw [← size]
          simp only [List.length_drop, List.length_append, List.length_cons]
          omega
        obtain ⟨front, split, complete, suffix, marked, resumes⟩ :=
          ih _ shorter _ more rfl
        have kept : keepLastPiece isMark width (junk ++ a :: rest) =
            keepLastPiece isMark width ((a :: rest).drop width) := by
          simp only [keepLastPiece, whole]
          cases later : pieceStarts isMark width ((a :: rest).drop width) with
          | nil => exact absurd later more
          | cons b pieces => simp [List.getLast?_cons]
        have enough : width ≤ (a :: rest).length := by
          by_contra short
          have gone : (a :: rest).drop width = [] := List.drop_eq_nil_of_le (by omega)
          exact more (by rw [gone]; exact pieceStarts_of_no_mark positive (by simp))
        refine ⟨(a :: rest) :: front, ?_, ?_, ?_, kept ▸ marked, fun chunk => ?_⟩
        · rw [kept, whole, List.cons_append, ← split]
        · intro piece member
          rcases List.mem_cons.mp member with rfl | earlier
          · exact enough
          · exact complete piece earlier
        · rw [kept]
          exact suffix.trans ((List.drop_suffix width (a :: rest)).trans
            (List.suffix_append junk (a :: rest)))
        · have onward : (a :: rest ++ chunk).drop width = (a :: rest).drop width ++ chunk :=
            List.drop_append_of_le_length enough
          rw [longer chunk, List.cons_append, pieceStarts_of_mark positive mark,
            ← List.cons_append, onward, resumes chunk, kept]
          simp

/-- Appending does not change whether a complete piece is good. -/
theorem goodPiece_append {good : List α → Bool} {suffix : List α}
    (complete : width ≤ suffix.length) (chunk : List α) :
    goodPiece width good (suffix ++ chunk) = goodPiece width good suffix := by
  simp [goodPiece, List.take_append_of_le_length complete, complete, Nat.le_add_right_of_le]

/-- **The search may be interrupted and resumed.** -/
theorem pieceScanner_resumes (positive : 0 < width) (good : List α → Bool) :
    (pieceScanner isMark width good).Resumes where
  keep_append held chunk := by
    by_cases begun : pieceStarts isMark width held = []
    · simp [pieceScanner, keepLastPiece, begun]
    · obtain ⟨front, -, -, -, ⟨a, rest, kept, mark⟩, resumes⟩ :=
        pieceStarts_resume positive held begun
      show keepLastPiece isMark width (keepLastPiece isMark width held ++ chunk) =
        keepLastPiece isMark width (held ++ chunk)
      have again : pieceStarts isMark width (keepLastPiece isMark width held ++ chunk) ≠ [] := by
        rw [kept, List.cons_append, pieceStarts_of_mark positive mark]
        exact List.cons_ne_nil _ _
      obtain ⟨last, found⟩ := Option.isSome_iff_exists.mp (List.getLast?_isSome.mpr again)
      have whole : (pieceStarts isMark width (held ++ chunk)).getLast? = some last := by
        rw [resumes chunk, List.getLast?_append, found, Option.some_or]
      rw [keepLastPiece_of_last found, keepLastPiece_of_last whole]
  report_append held chunk := by
    by_cases begun : pieceStarts isMark width held = []
    · simp [pieceScanner, keepLastPiece, begun]
    · obtain ⟨front, split, complete, -, ⟨a, rest, kept, mark⟩, resumes⟩ :=
        pieceStarts_resume positive held begun
      have earlier : (front.map (· ++ chunk)).any (goodPiece width good) =
          front.any (goodPiece width good) := by
        rw [Bool.eq_iff_iff]
        simp only [List.any_map, List.any_eq_true, Function.comp_apply]
        exact exists_congr fun piece => and_congr_right fun member => by
          rw [goodPiece_append (complete piece member)]
      have lastAgain : goodPiece width good (keepLastPiece isMark width held) = true →
          (pieceStarts isMark width (keepLastPiece isMark width held ++ chunk)).any
            (goodPiece width good) = true := by
        intro goodLast
        have complete : width ≤ (keepLastPiece isMark width held).length := by
          have parts := goodLast
          simp only [goodPiece, Bool.and_eq_true, decide_eq_true_eq] at parts
          exact parts.1
        rw [← goodPiece_append complete chunk] at goodLast
        rw [kept, List.cons_append] at goodLast ⊢
        rw [pieceStarts_of_mark positive mark, List.any_cons, goodLast, Bool.true_or]
      show (pieceStarts isMark width (held ++ chunk)).any (goodPiece width good) =
        ((pieceStarts isMark width held).any (goodPiece width good) ||
          (pieceStarts isMark width (keepLastPiece isMark width held ++ chunk)).any
            (goodPiece width good))
      rw [resumes chunk, split, List.any_append, List.any_append, earlier]
      cases later : goodPiece width good (keepLastPiece isMark width held) with
      | false => simp [later]
      | true => simp [lastAgain later]
  join_assoc := Bool.or_assoc
  join_nothing := Bool.or_false

end Foundations

import Mathlib.Data.Fintype.Basic
import Mathlib.Data.List.Range
import Mathlib.Data.Nat.Bits

/-!
# Positions around a ring

The places of a ring are numbered, and the place behind the last one is the first one (`next`). From
a place on, the first ones up to the size of the ring are different (`ahead_inj`), so that what is
written behind a row of filled places leaves the row as it is (`row_push`, `row_overwrite`), and
taking from its front leaves the rest (`row_succ`, `row_add`).

A ring whose places can all be filled has two sides, as equal places alone do not tell an empty ring
from a full one (`Mark`): a mark that goes past the end comes to the other side.
-/

set_option autoImplicit false

namespace Foundations

namespace Ring

variable {size : ℕ} {α : Type*}

/-- The place so many places ahead. -/
def ahead (p : Fin size) (i : ℕ) : Fin size :=
  ⟨(p + i) % size, Nat.mod_lt _ (Nat.lt_of_le_of_lt (Nat.zero_le _) p.isLt)⟩

/-- The next place: the index is counted up, and set to 0 at the end. -/
def next (p : Fin size) : Fin size :=
  if inside : p.val + 1 < size then ⟨p + 1, inside⟩
  else ⟨0, Nat.lt_of_le_of_lt (Nat.zero_le _) p.isLt⟩

@[simp] theorem ahead_zero (p : Fin size) : ahead p 0 = p :=
  Fin.ext (Nat.mod_eq_of_lt p.isLt)

theorem next_eq_ahead (p : Fin size) : next p = ahead p 1 := by
  have bound := p.isLt
  refine Fin.ext ?_
  unfold next
  split
  · rename_i inside
    exact (Nat.mod_eq_of_lt inside).symm
  · have last : p.val + 1 = size := by omega
    simp [ahead, last]

theorem ahead_ahead (p : Fin size) (i j : ℕ) : ahead (ahead p i) j = ahead p (i + j) := by
  refine Fin.ext ?_
  simp only [ahead, Nat.mod_add_mod, Nat.add_assoc]

theorem next_ahead (p : Fin size) (i : ℕ) : next (ahead p i) = ahead p (i + 1) := by
  rw [next_eq_ahead, ahead_ahead]

theorem ahead_next (p : Fin size) (i : ℕ) : ahead (next p) i = ahead p (i + 1) := by
  rw [next_eq_ahead, ahead_ahead, Nat.add_comm]

/-- Within one round the places are different. -/
theorem ahead_inj {p : Fin size} {i j : ℕ} (left : i < size) (right : j < size)
    (same : ahead p i = ahead p j) : i = j := by
  have bound := p.isLt
  have values : (p.val + i) % size = (p.val + j) % size := congrArg Fin.val same
  have around (k : ℕ) (small : k < size) :
      (p.val + k) % size = if p.val + k < size then p.val + k else p.val + k - size := by
    split
    · rename_i inside
      exact Nat.mod_eq_of_lt inside
    · rw [Nat.mod_eq_sub_mod (by omega), Nat.mod_eq_of_lt (by omega)]
  rw [around i left, around j right] at values
  split at values <;> split at values <;> omega

/-- Once around is where one started. -/
theorem ahead_eq_self_iff {p : Fin size} {i : ℕ} (bound : i ≤ size) :
    ahead p i = p ↔ i = 0 ∨ i = size := by
  constructor
  · intro same
    rcases Nat.lt_or_eq_of_le bound with less | whole
    · exact .inl (ahead_inj less (Nat.lt_of_le_of_lt (Nat.zero_le _) p.isLt)
        (same.trans (ahead_zero p).symm))
    · exact .inr whole
  · rintro (rfl | rfl)
    · exact ahead_zero p
    · refine Fin.ext ?_
      simp [ahead, Nat.mod_eq_of_lt p.isLt]

/-- What stands in so many places from a place on. -/
def row (cells : Fin size → α) (p : Fin size) (n : ℕ) : List α :=
  (List.range n).map fun i => cells (ahead p i)

@[simp] theorem length_row (cells : Fin size → α) (p : Fin size) (n : ℕ) :
    (row cells p n).length = n := by
  simp [row]

/-- What is written behind a row comes to its end. -/
theorem row_push (cells : Fin size → α) (p : Fin size) {n : ℕ} (room : n < size) (a : α) :
    row (Function.update cells (ahead p n) a) p (n + 1) = row cells p n ++ [a] := by
  have before : (List.range n).map (fun i => Function.update cells (ahead p n) a (ahead p i)) =
      row cells p n := by
    refine List.map_congr_left fun i member => Function.update_of_ne ?_ _ _
    intro same
    have less := List.mem_range.mp member
    have := ahead_inj (by omega) room same
    omega
  rw [row, List.range_succ, List.map_append, before, List.map_singleton, Function.update_self]

/-- The front of a row, and the rest. -/
theorem row_succ (cells : Fin size → α) (p : Fin size) (n : ℕ) :
    row cells p (n + 1) = cells p :: row cells (next p) n := by
  simp [row, List.range_succ_eq_map, ahead_next, Function.comp_def]

/-- Two rows, one behind the other. -/
theorem row_add (cells : Fin size → α) (p : Fin size) (m n : ℕ) :
    row cells p (m + n) = row cells p m ++ row cells (ahead p m) n := by
  simp [row, List.range_add, ahead_ahead, Function.comp_def]

theorem drop_row (cells : Fin size → α) (p : Fin size) {k n : ℕ} (within : k ≤ n) :
    (row cells p n).drop k = row cells (ahead p k) (n - k) := by
  have both := row_add cells p k (n - k)
  rw [Nat.add_sub_cancel' within] at both
  rw [both, List.drop_left' (length_row cells p k)]

theorem take_row (cells : Fin size → α) (p : Fin size) {k n : ℕ} (within : k ≤ n) :
    (row cells p n).take k = row cells p k := by
  have both := row_add cells p k (n - k)
  rw [Nat.add_sub_cancel' within] at both
  rw [both, List.take_left' (length_row cells p k)]

/-! ## Several places at once -/

/-- Values are stored in one place after the other. -/
def overwrite (cells : Fin size → α) (p : Fin size) : List α → Fin size → α
  | [] => cells
  | a :: rest => overwrite (Function.update cells p a) (next p) rest

theorem overwrite_append (xs ys : List α) (cells : Fin size → α) (p : Fin size) :
    overwrite cells p (xs ++ ys) = overwrite (overwrite cells p xs) (ahead p xs.length) ys := by
  induction xs generalizing cells p with
  | nil => rw [List.nil_append, List.length_nil, ahead_zero, overwrite]
  | cons a xs ih =>
      rw [List.cons_append, overwrite, ih, overwrite, List.length_cons, ahead_next]

/-- Values that are written behind a row come to its end. -/
theorem row_overwrite (xs : List α) (cells : Fin size → α) (p : Fin size) {n : ℕ}
    (room : n + xs.length ≤ size) :
    row (overwrite cells (ahead p n) xs) p (n + xs.length) = row cells p n ++ xs := by
  induction xs generalizing cells n with
  | nil => rw [overwrite, List.append_nil, List.length_nil, Nat.add_zero]
  | cons a xs ih =>
      rw [List.length_cons] at room
      rw [overwrite, next_ahead, List.length_cons, show n + (xs.length + 1) = n + 1 + xs.length by
        omega, ih _ (by omega), row_push cells p (by omega), List.append_assoc,
        List.singleton_append]

/-- Values are copied to the places from `offset` on, up to the end of the ring. -/
def copyTo (cells : Fin size → α) (offset : ℕ) (xs : List α) : Fin size → α := fun i =>
  if offset ≤ i then (xs[i.val - offset]?).getD (cells i) else cells i

/-- What ends within the ring is copied as it is stored. -/
theorem copyTo_eq_overwrite (xs : List α) (cells : Fin size → α) (p : Fin size)
    (fits : p + xs.length ≤ size) : copyTo cells p xs = overwrite cells p xs := by
  induction xs generalizing cells p with
  | nil =>
      funext i
      simp [copyTo, overwrite]
  | cons a xs ih =>
      rw [List.length_cons] at fits
      rcases xs.eq_nil_or_concat' with rfl | ⟨_, _, rfl⟩
      · funext i
        simp only [copyTo, overwrite, Function.update_apply]
        by_cases here : i = p
        · simp [here]
        · rw [if_neg here]
          split
          · rename_i behind
            have more : i.val ≠ p.val := fun same => here (Fin.ext same)
            rw [List.getElem?_eq_none (by simp only [List.length_cons, List.length_nil]; omega)]
            rfl
          · rfl
      · rw [List.length_append, List.length_singleton] at fits
        have follows : (next p).val = p.val + 1 := by
          rw [next, dif_pos (by omega)]
        rw [overwrite, ← ih _ _ (by rw [follows, List.length_append, List.length_singleton]; omega)]
        funext i
        simp only [copyTo, follows, Function.update_apply]
        by_cases here : i = p
        · simp [here]
        · have apart : i.val ≠ p.val := fun same => here (Fin.ext same)
          rw [if_neg here]
          rcases Nat.lt_or_ge i.val p.val with before | behind
          · rw [if_neg (by omega), if_neg (by omega)]
          · rw [if_pos behind, if_pos (by omega)]
            obtain ⟨k, at_⟩ := Nat.exists_eq_add_of_lt (Nat.lt_of_le_of_ne behind (Ne.symm apart))
            rw [show i.val - p.val = k + 1 by omega, show i.val - (p.val + 1) = k by omega,
              List.getElem?_cons_succ]

/-- Two copies, up to the end of the ring and from its beginning on. -/
theorem copyTo_around (xs : List α) (cells : Fin size → α) (p : Fin size)
    (past : size ≤ p + xs.length) (once : xs.length ≤ size) :
    copyTo (copyTo cells p (xs.take (size - p))) 0 (xs.drop (size - p)) = overwrite cells p xs := by
  have bound := p.isLt
  have front : (xs.take (size - p)).length = size - p := by
    rw [List.length_take]
    omega
  have start : ahead p (size - p) = ⟨0, Nat.lt_of_le_of_lt (Nat.zero_le _) bound⟩ :=
    Fin.ext (by simp [ahead, Nat.add_sub_cancel' (Nat.le_of_lt bound)])
  have back : (xs.drop (size - p)).length ≤ size := by
    rw [List.length_drop]
    omega
  have whole := overwrite_append (xs.take (size - p)) (xs.drop (size - p)) cells p
  rw [List.take_append_drop, front, start] at whole
  rw [whole, copyTo_eq_overwrite _ _ _ (by rw [front]; omega)]
  exact copyTo_eq_overwrite _ _ ⟨0, _⟩ (by simpa using back)

/-! ## Two sides -/

/-- A place on one of the two sides of a ring. -/
structure Mark (size : ℕ) where
  side : Bool
  place : Fin size
  deriving DecidableEq

namespace Mark

/-- The mark so many places ahead: past the end it is on the other side. -/
def ahead (m : Mark size) (n : ℕ) : Mark size :=
  ⟨m.side ^^ Nat.bodd ((m.place + n) / size), Ring.ahead m.place n⟩

@[simp] theorem place_ahead (m : Mark size) (n : ℕ) : (m.ahead n).place = Ring.ahead m.place n :=
  rfl

theorem ahead_ahead (m : Mark size) (i j : ℕ) : (m.ahead i).ahead j = m.ahead (i + j) := by
  have some_ : 0 < size := Nat.lt_of_le_of_lt (Nat.zero_le _) m.place.isLt
  have rounds : (m.place.val + (i + j)) / size =
      (m.place.val + i) / size + ((m.place.val + i) % size + j) / size := by
    conv_lhs => rw [← Nat.add_assoc, ← Nat.div_add_mod (m.place.val + i) size, Nat.add_assoc]
    rw [Nat.mul_add_div some_]
  have sides : ((m.side ^^ Nat.bodd ((m.place + i) / size)) ^^
      Nat.bodd (((m.place + i) % size + j) / size)) =
      (m.side ^^ Nat.bodd ((m.place + (i + j)) / size)) := by
    rw [rounds, Nat.bodd_add, Bool.xor_assoc]
  exact congrArg₂ Mark.mk sides (Ring.ahead_ahead m.place i j)

/-- Within the ring the side stays. -/
theorem ahead_inside {m : Mark size} {n : ℕ} (inside : m.place + n < size) :
    m.ahead n = ⟨m.side, ⟨m.place + n, inside⟩⟩ := by
  simp [ahead, Ring.ahead, Nat.div_eq_of_lt inside, Nat.mod_eq_of_lt inside]

/-- Past the end it changes. -/
theorem ahead_past {m : Mark size} {n : ℕ} (past : size ≤ m.place + n) (once : n ≤ size) :
    m.ahead n = ⟨!m.side, ⟨n - (size - m.place), by have := m.place.isLt; omega⟩⟩ := by
  have bound := m.place.isLt
  have rounds : (m.place.val + n) / size = 1 := Nat.div_eq_of_lt_le (by omega) (by omega)
  have left : (m.place.val + n) % size = n - (size - m.place) := by
    rw [Nat.mod_eq_sub_mod past, Nat.mod_eq_of_lt (by omega)]
    omega
  simp [ahead, Ring.ahead, rounds, left]

end Mark

end Ring

end Foundations

import Mathlib.Data.List.Basic

/-!
# Blocks of memory

A block is a row of cells whose number never changes: it is a field of the structure that
the row has that length, so no operation can grow or shrink it. `fill` is `memset`,
`write` copies a list of values over the cells from an offset on (`memcpy` into the block),
`read` copies cells out, and `moveDown` is the overlapping copy that brings the cells from an
offset on to the front (`memmove`). A write that would go past the end is cut there.

Reading back gives what was written (`read_write_self`), a read beside a write is unchanged
(`read_write_before`, `read_write_after`). Two writes, the second where the first one ended,
are one write (`write_write`); a `Cursor` carries the place where the next one goes.
-/

set_option autoImplicit false

namespace Foundations

/-- A row of `size` cells. -/
structure Block (α : Type*) (size : ℕ) where
  cells : List α
  length_cells : cells.length = size
  deriving DecidableEq

namespace Block

variable {α : Type*} {size : ℕ}

theorem ext_cells {b c : Block α size} (same : b.cells = c.cells) : b = c := by
  cases b
  cases c
  cases same
  rfl

/-- Every cell holds `a`. -/
def fill (size : ℕ) (a : α) : Block α size where
  cells := List.replicate size a
  length_cells := List.length_replicate

/-- Copy `xs` over the cells from `offset` on; what would lie past the end is not written. -/
def write (b : Block α size) (offset : ℕ) (xs : List α) : Block α size where
  cells := (b.cells.take offset ++ xs ++ b.cells.drop (offset + xs.length)).take size
  length_cells := by
    have whole := b.length_cells
    simp only [List.length_take, List.length_append, List.length_drop]
    omega

/-- Copy out `length` cells from `offset` on. -/
def read (b : Block α size) (offset length : ℕ) : List α :=
  (b.cells.drop offset).take length

/-- Bring the `length` cells from `offset` on to the front; the other cells keep their values. -/
def moveDown (b : Block α size) (offset length : ℕ) : Block α size :=
  b.write 0 (b.read offset length)

/-! ## Cell by cell -/

theorem getElem?_write (b : Block α size) (offset : ℕ) (xs : List α) (i : ℕ) :
    (b.write offset xs).cells[i]? =
      if i < size then
        if offset ≤ i ∧ i < offset + xs.length then xs[i - offset]? else b.cells[i]?
      else none := by
  have whole := b.length_cells
  simp only [write, List.getElem?_take, List.append_assoc]
  split
  · rename_i within
    by_cases before : i < offset
    · rw [List.getElem?_append_left (by simp; omega), List.getElem?_take, if_pos before,
        if_neg (by omega)]
    · have skipped : (b.cells.take offset).length = offset := by simp; omega
      rw [List.getElem?_append_right (by omega), skipped]
      by_cases inside : i < offset + xs.length
      · rw [List.getElem?_append_left (by omega), if_pos ⟨by omega, inside⟩]
      · rw [List.getElem?_append_right (by omega), if_neg (by omega), List.getElem?_drop]
        congr 1
        omega
  · rfl

theorem getElem?_read (b : Block α size) (offset length i : ℕ) :
    (b.read offset length)[i]? = if i < length then b.cells[offset + i]? else none := by
  simp only [read, List.getElem?_take, List.getElem?_drop]

@[simp] theorem length_read (b : Block α size) (offset length : ℕ) :
    (b.read offset length).length = min length (size - offset) := by
  simp [read, b.length_cells]

@[simp] theorem read_zero_length (b : Block α size) (offset : ℕ) : b.read offset 0 = [] := by
  simp [read]

/-- A shorter read is the beginning of a longer one. -/
theorem take_read (b : Block α size) (offset length short : ℕ) (bound : short ≤ length) :
    (b.read offset length).take short = b.read offset short := by
  simp [read, List.take_take, Nat.min_eq_left bound]

/-- A read splits where one wants. -/
theorem read_add (b : Block α size) (offset front back : ℕ) :
    b.read offset (front + back) = b.read offset front ++ b.read (offset + front) back := by
  simp [read, List.take_add, List.drop_drop]

theorem drop_read (b : Block α size) (offset length skip : ℕ) :
    (b.read offset length).drop skip = b.read (offset + skip) (length - skip) := by
  simp [read, List.drop_take, List.drop_drop]

theorem read_fill (a : α) (offset length : ℕ) :
    (fill size a).read offset length = List.replicate (min length (size - offset)) a := by
  simp [read, fill]

/-! ## Reads after a write -/

/-- What was written is read back. -/
theorem read_write_self (b : Block α size) (offset : ℕ) (xs : List α)
    (fits : offset + xs.length ≤ size) : (b.write offset xs).read offset xs.length = xs := by
  apply List.ext_getElem?
  intro i
  rw [getElem?_read]
  split
  · rw [getElem?_write, if_pos (by omega), if_pos (by omega), Nat.add_sub_cancel_left]
  · rw [List.getElem?_eq_none (by omega)]

/-- A read that ends before the written cells is unchanged. -/
theorem read_write_before (b : Block α size) (offset : ℕ) (xs : List α) (from_ length : ℕ)
    (apart : from_ + length ≤ offset) :
    (b.write offset xs).read from_ length = b.read from_ length := by
  have whole := b.length_cells
  apply List.ext_getElem?
  intro i
  rw [getElem?_read, getElem?_read, getElem?_write]
  split
  · split
    · rw [if_neg (by omega)]
    · rw [List.getElem?_eq_none (by omega)]
  · rfl

/-- A read that starts after the written cells is unchanged. -/
theorem read_write_after (b : Block α size) (offset : ℕ) (xs : List α) (from_ length : ℕ)
    (apart : offset + xs.length ≤ from_) :
    (b.write offset xs).read from_ length = b.read from_ length := by
  have whole := b.length_cells
  apply List.ext_getElem?
  intro i
  rw [getElem?_read, getElem?_read, getElem?_write]
  split
  · split
    · rw [if_neg (by omega)]
    · rw [List.getElem?_eq_none (by omega)]
  · rfl

/-- So are all the cells behind. -/
theorem drop_write (b : Block α size) {offset : ℕ} {xs : List α} {k : ℕ}
    (apart : offset + xs.length ≤ k) : (b.write offset xs).cells.drop k = b.cells.drop k := by
  have all (c : Block α size) : c.cells.drop k = c.read k size := by
    rw [read, List.take_of_length_le]
    rw [List.length_drop, c.length_cells]
    exact Nat.sub_le _ _
  rw [all, all, read_write_after b offset xs k size apart]

/-- Values written behind the first `offset` cells extend what is read from the front. -/
theorem read_write_append (b : Block α size) (offset : ℕ) (xs : List α)
    (fits : offset + xs.length ≤ size) :
    (b.write offset xs).read 0 (offset + xs.length) = b.read 0 offset ++ xs := by
  rw [read_add, read_write_before b offset xs 0 offset (by omega), Nat.zero_add,
    read_write_self b offset xs fits]

@[simp] theorem write_nil (b : Block α size) (offset : ℕ) : b.write offset [] = b := by
  apply ext_cells
  have whole : b.cells.take size = b.cells := List.take_of_length_le (Nat.le_of_eq b.length_cells)
  simp [write, whole]

/-- A write of as many values as there are cells. -/
theorem cells_write_all (b : Block α size) {xs : List α} (all : xs.length = size) :
    (b.write 0 xs).cells = xs := by
  have whole : xs.take size = xs := List.take_of_length_le (Nat.le_of_eq all)
  have behind : b.cells.drop xs.length = [] :=
    List.drop_eq_nil_of_le (Nat.le_of_eq (b.length_cells.trans all.symm))
  simp [write, behind, whole]

/-- A write puts its values in the place of as many others. -/
theorem cells_write_split (b : Block α size) (before old : List α) {behind xs : List α}
    (split : b.cells = before ++ (old ++ behind)) (count : xs.length = old.length) :
    (b.write before.length xs).cells = before ++ (xs ++ behind) := by
  have whole := b.length_cells
  rw [split, List.length_append, List.length_append] at whole
  show (b.cells.take before.length ++ xs ++ b.cells.drop (before.length + xs.length)).take size = _
  rw [split, List.take_left, ← List.drop_drop, List.drop_left, List.drop_left' count.symm,
    List.append_assoc]
  refine List.take_of_length_le ?_
  rw [List.length_append, List.length_append]
  omega

theorem read_split (b : Block α size) {before xs behind : List α}
    (split : b.cells = before ++ (xs ++ behind)) : b.read before.length xs.length = xs := by
  rw [read, split, List.drop_left, List.take_left]

/-- A write behind another one continues it. -/
theorem write_write (b : Block α size) (offset : ℕ) (xs ys : List α) :
    (b.write offset xs).write (offset + xs.length) ys = b.write offset (xs ++ ys) := by
  apply ext_cells
  apply List.ext_getElem?
  intro i
  rw [getElem?_write, getElem?_write, getElem?_write, List.length_append]
  split
  · by_cases second : offset + xs.length ≤ i ∧ i < offset + xs.length + ys.length
    · rw [if_pos second, if_pos (by omega), List.getElem?_append_right (by omega)]
      congr 1
      omega
    · rw [if_neg second]
      by_cases first : offset ≤ i ∧ i < offset + xs.length
      · rw [if_pos first, if_pos (by omega), List.getElem?_append_left (by omega)]
      · rw [if_neg first, if_neg (by omega)]
  · rfl

/-- Write the first `k` pieces of `width` values, one behind the other. -/
def writePieces (b : Block α size) (width offset : ℕ) : ℕ → List α → Block α size
  | 0, _ => b
  | k + 1, xs =>
      (b.write offset (xs.take width)).writePieces width (offset + width) k (xs.drop width)

/-- Pieces written one behind the other are written as a whole. -/
theorem writePieces_eq (b : Block α size) (width offset k : ℕ) (xs : List α)
    (enough : width * k ≤ xs.length) :
    b.writePieces width offset k xs = b.write offset (xs.take (width * k)) := by
  induction k generalizing b offset xs with
  | zero => simp [writePieces]
  | succ k ih =>
      rw [Nat.mul_succ] at enough ⊢
      have first : (xs.take width).length = width := by
        rw [List.length_take]
        omega
      have behind := write_write b offset (xs.take width) ((xs.drop width).take (width * k))
      rw [first] at behind
      rw [writePieces, ih _ _ _ (by rw [List.length_drop]; omega), behind, Nat.add_comm (width * k),
        List.take_add]

/-- The block of the first `n` cells. -/
def front (b : Block α size) (n : ℕ) (fits : n ≤ size) : Block α n where
  cells := b.cells.take n
  length_cells := by
    rw [List.length_take, b.length_cells]
    omega

/-- A write goes to the first cells as far as it reaches them. -/
theorem front_write (b : Block α size) {n : ℕ} (fits : n ≤ size) (offset : ℕ) (xs : List α) :
    (b.write offset xs).front n fits = (b.front n fits).write offset xs := by
  apply ext_cells
  apply List.ext_getElem?
  intro i
  rw [getElem?_write, front, front, List.getElem?_take, List.getElem?_take, getElem?_write]
  by_cases first : i < n
  · rw [if_pos first, if_pos first, if_pos (by omega), if_pos first]
  · rw [if_neg first, if_neg first]

/-- The cells brought to the front. -/
theorem read_moveDown (b : Block α size) (offset length : ℕ) (fits : offset + length ≤ size) :
    (b.moveDown offset length).read 0 length = b.read offset length := by
  have count : (b.read offset length).length = length := by simp; omega
  have written := read_write_self b 0 (b.read offset length) (by omega)
  rwa [count] at written

end Block

/-! ## Writing one thing after another -/

/-- A block, and the offset at which the next write goes. -/
structure Cursor (α : Type*) (size : ℕ) where
  block : Block α size
  pos : ℕ

namespace Cursor

variable {α : Type*} {size : ℕ}

/-- Write `xs` and move behind them. -/
def put (c : Cursor α size) (xs : List α) : Cursor α size :=
  ⟨c.block.write c.pos xs, c.pos + xs.length⟩

theorem put_put (c : Cursor α size) (xs ys : List α) :
    (c.put xs).put ys = c.put (xs ++ ys) := by
  simp only [put, Block.write_write, List.length_append, Nat.add_assoc]

end Cursor

end Foundations

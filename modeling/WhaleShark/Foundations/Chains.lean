import Mathlib.Data.List.Basic
import Mathlib.Data.List.Nodup

/-!
# Cells linked by pointers

Each cell has a pointer to the next one, or none. A chain is the row of cells that is passed when
the pointers are followed from a start until there is none (`Chain`). A write into a cell beside a
chain leaves the chain as it is (`Chain.write`). A cell goes in at the front (`Chain.push`), or at
the back, behind a last cell that is known (`Chain.append`), and the first one goes out
(`Chain.uncons`).
-/

set_option autoImplicit false

namespace Foundations

variable {Cell : Type*}

/-- The cells that are passed from a start on. -/
inductive Chain (next : Cell → Option Cell) : Option Cell → List Cell → Prop where
  | nil : Chain next none []
  | cons {c : Cell} {cells : List Cell} (rest : Chain next (next c) cells) :
      Chain next (some c) (c :: cells)

namespace Chain

variable {next : Cell → Option Cell} {start : Option Cell} {cells : List Cell} {c : Cell}

theorem eq_nil (chain : Chain next none cells) : cells = [] := by
  cases chain
  rfl

/-- The first cell, and the chain behind it. -/
theorem uncons (chain : Chain next (some c) cells) :
    ∃ rest, cells = c :: rest ∧ Chain next (next c) rest := by
  cases chain with
  | cons rest => exact ⟨_, rfl, rest⟩

theorem start_eq_head? (chain : Chain next start cells) : start = cells.head? := by
  cases chain <;> rfl

/-- The same pointers in the cells of a chain make the same chain. -/
theorem congr {next' : Cell → Option Cell} (chain : Chain next start cells)
    (same : ∀ c ∈ cells, next' c = next c) : Chain next' start cells := by
  induction chain with
  | nil => exact .nil
  | @cons c cells _ ih =>
      have rest := ih fun d member => same d (List.mem_cons_of_mem _ member)
      rw [← same c List.mem_cons_self] at rest
      exact .cons rest

variable [DecidableEq Cell]

/-- A write into a cell beside a chain. -/
theorem write (chain : Chain next start cells) (outside : c ∉ cells) (pointer : Option Cell) :
    Chain (Function.update next c pointer) start cells :=
  chain.congr fun d member =>
    Function.update_of_ne (by rintro rfl; exact outside member) _ _

/-- A cell that points to the start of a chain begins a longer one. -/
theorem push (chain : Chain next start cells) (outside : c ∉ cells) :
    Chain (Function.update next c start) (some c) (c :: cells) := by
  refine .cons ?_
  rw [Function.update_self]
  exact chain.write outside start

/-- The last cell of a chain is made to point to a cell that points nowhere. -/
theorem append {last : Cell} (chain : Chain next start cells) (distinct : cells.Nodup)
    (outside : c ∉ cells) (end_ : next c = none) (tail : cells.getLast? = some last) :
    Chain (Function.update next last (some c)) start (cells ++ [c]) := by
  induction chain with
  | nil => cases tail
  | @cons d cells rest ih =>
      obtain ⟨fresh, distinct'⟩ := List.nodup_cons.mp distinct
      obtain ⟨ne, outside'⟩ := not_or.mp (List.mem_cons.not.mp outside)
      refine .cons ?_
      cases cells with
      | nil =>
          obtain rfl : d = last := by simpa using tail
          rw [Function.update_self]
          have pointer : Function.update next d (some c) c = none := by
            rw [Function.update_of_ne ne, end_]
          exact .cons (pointer ▸ .nil)
      | cons d' cells =>
          have behind : (d' :: cells).getLast? = some last := by simpa using tail
          have other : d ≠ last := by
            rintro rfl
            exact fresh (List.mem_of_getLast? behind)
          rw [Function.update_of_ne other]
          exact ih distinct' outside' behind

end Chain

end Foundations

import WhaleShark.Kernel.HeapBlocks

/-!
# Blocks in the memory

A row of blocks lies in the memory with its headers, each of which has the offsets of the next and
the previous one, and the bytes that are known (`Segment`). What stands outside of a segment has no
part in it (`Segment.congr`), and a segment goes on behind another (`segment_append`).

Putting a header into a block (`segment_insertHeader`) and taking one out (`segment_join`) change
the row as they should. The link of the next header back is set with them, though not always that of
the end, which is never read.
-/

set_option autoImplicit false

namespace WhaleShark.Kernel

open Foundations HeapBlock

/-- The bytes that are known are in the memory. -/
def HeapBlock.Kept (m : ByteMemory) (p : ℕ) : HeapBlock → Prop
  | .free _ => True
  | .used data => ∀ i b, data[i]? = some (some b) → m (p + i) = b

/-- The header at `at_` is that of the block, and of the block behind it. -/
structure Header (m : ByteMemory) (prev at_ : ℕ) (b : HeapBlock) : Prop where
  magic : m.readLe at_ 2 = heapMagic
  used : m.readLe (at_ + 2) 2 = if b.isFree = true then 0 else 1
  next : m.readLe (at_ + 4) 4 = at_ + b.span
  prev : m.readLe (at_ + 8) 4 = prev
  data : b.Kept m (at_ + 12)

/-- The blocks lie one behind the other from `at_` on, behind the header at `prev`. -/
def Segment (m : ByteMemory) : ℕ → ℕ → List HeapBlock → Prop
  | _, _, [] => True
  | prev, at_, b :: rest => Header m prev at_ b ∧ Segment m at_ (at_ + b.span) rest

/-- The last header of a row, or the one before it. -/
def lastHeader : ℕ → ℕ → List HeapBlock → ℕ
  | prev, _, [] => prev
  | _, at_, b :: rest => lastHeader at_ (at_ + b.span) rest

variable {m m' : ByteMemory} {prev at_ : ℕ}

/-- What is known depends on the bytes of the block only. -/
theorem HeapBlock.Kept.congr {p : ℕ} {b : HeapBlock} (kept : b.Kept m p)
    (alike : ∀ x, p ≤ x → x < p + b.size → m' x = m x) : b.Kept m' p := by
  cases b with
  | free n => trivial
  | used data =>
      intro i c known
      have inside : i < data.length := (List.getElem?_eq_some_iff.mp known).1
      rw [alike (p + i) (Nat.le_add_right p i) (by simpa using inside)]
      exact kept i c known

/-- A header depends on its own bytes, and on those of the block that are known. -/
theorem Header.refill {b b' : HeapBlock} (header : Header m prev at_ b) (same : b'.span = b.span)
    (kind : b'.isFree = b.isFree) (alike : ∀ x, at_ ≤ x → x < at_ + 12 → m' x = m x)
    (kept : b'.Kept m' (at_ + 12)) : Header m' prev at_ b' := by
  have field (a n : ℕ) (low : at_ ≤ a) (high : a + n ≤ at_ + 12) :
      m'.readLe a n = m.readLe a n :=
    ByteMemory.readLe_congr fun x front behind => alike x (by omega) (by omega)
  refine ⟨?_, ?_, ?_, ?_, kept⟩
  · rw [field at_ 2 (by omega) (by omega)]
    exact header.magic
  · rw [field (at_ + 2) 2 (by omega) (by omega), kind]
    exact header.used
  · rw [field (at_ + 4) 4 (by omega) (by omega), same]
    exact header.next
  · rw [field (at_ + 8) 4 (by omega) (by omega)]
    exact header.prev

theorem Header.congr {b : HeapBlock} (header : Header m prev at_ b)
    (alike : ∀ x, at_ ≤ x → x < at_ + b.span → m' x = m x) : Header m' prev at_ b := by
  have span := b.span_eq
  refine header.refill rfl rfl (fun x low high => alike x low (by omega)) ?_
  exact header.data.congr fun x front behind => alike x (by omega) (by omega)

theorem Segment.congr {row : List HeapBlock} (segment : Segment m prev at_ row)
    (alike : ∀ x, at_ ≤ x → x < at_ + extent row → m' x = m x) : Segment m' prev at_ row := by
  induction row generalizing prev at_ with
  | nil => trivial
  | cons b rest ih =>
      obtain ⟨header, behind⟩ := segment
      rw [extent_cons] at alike
      exact ⟨header.congr fun x low high => alike x low (by omega),
        ih behind fun x low high => alike x (by omega) (by omega)⟩

theorem segment_append {row more : List HeapBlock} :
    Segment m prev at_ (row ++ more) ↔
      Segment m prev at_ row ∧ Segment m (lastHeader prev at_ row) (at_ + extent row) more := by
  induction row generalizing prev at_ with
  | nil => exact ⟨fun segment => ⟨trivial, segment⟩, And.right⟩
  | cons b rest ih =>
      rw [List.cons_append, Segment, Segment, ih, lastHeader, extent_cons, Nat.add_assoc at_,
        and_assoc]

/-- The link back of the first header is set. Where there is none that is the one of the end. -/
theorem Segment.relink {row : List HeapBlock} (segment : Segment m prev at_ row) {p : ℕ}
    (small : p < 0x100000000) : Segment (m.writeLe (at_ + 8) 4 p) p at_ row := by
  cases row with
  | nil => trivial
  | cons b rest =>
      obtain ⟨header, behind⟩ := segment
      refine ⟨⟨?_, ?_, ?_, ?_, ?_⟩, behind.congr fun x low _ => ?_⟩
      · rw [ByteMemory.readLe_writeLe_of_disjoint (by omega)]
        exact header.magic
      · rw [ByteMemory.readLe_writeLe_of_disjoint (by omega)]
        exact header.used
      · rw [ByteMemory.readLe_writeLe_of_disjoint (by omega)]
        exact header.next
      · exact ByteMemory.readLe_writeLe small
      · exact header.data.congr fun x low _ => ByteMemory.writeLe_of_disjoint (by omega)
      · rw [span_eq] at low
        exact ByteMemory.writeLe_of_disjoint (by omega)

/-- The front of a block. -/
def HeapBlock.front (n : ℕ) : HeapBlock → HeapBlock
  | .free _ => .free n
  | .used data => .used (data.take n)

@[simp] theorem HeapBlock.isFree_front (n : ℕ) (b : HeapBlock) : (b.front n).isFree = b.isFree := by
  cases b <;> rfl

theorem HeapBlock.size_front {n : ℕ} {b : HeapBlock} (within : n ≤ b.size) :
    (b.front n).size = n := by
  cases b with
  | free k => rfl
  | used data => exact List.length_take_of_le within

theorem HeapBlock.span_front {n : ℕ} {b : HeapBlock} (within : n ≤ b.size) :
    (b.front n).span = 12 + n := by
  rw [span_eq, size_front within]

theorem HeapBlock.Kept.front {p n : ℕ} {b : HeapBlock} (kept : b.Kept m p) :
    (b.front n).Kept m p := by
  cases b with
  | free k => trivial
  | used data =>
      intro i c known
      rw [List.getElem?_take] at known
      split at known
      · exact kept i c known
      · cases known

namespace SmallMem

variable {s : SmallMem}

/-- The link back behind the row in front, which is left out at the end of the heap. -/
theorem segment_relink_of_ne {row : List HeapBlock} {e p : ℕ} (segment : Segment m prev at_ row)
    (end_ : at_ + extent row = e) (small : p < 0x100000000) :
    Segment (if at_ ≠ e then m.writeLe (at_ + 8) 4 p else m) p at_ row := by
  split
  · exact segment.relink small
  · rename_i here
    cases row with
    | nil => trivial
    | cons b rest =>
        rw [extent_cons, span_eq] at end_
        omega

/-- **A header is put into a block.** -/
theorem segment_insertHeader {ptr n k : ℕ} {b : HeapBlock} {after : List HeapBlock}
    (segment : Segment s.mem prev ptr (b :: after)) (size : b.size = n + 12 + k)
    (end_ : ptr + extent (b :: after) = s.heapEnd) (small : s.heapEnd + 12 ≤ 0x100000000) :
    let s' := s.insertHeader ptr (ptr + sizeofStructMem + n)
    Segment s'.mem prev ptr (b.front n :: .free k :: after) ∧
      ∀ x < ptr, s'.mem x = s.mem x := by
  intro s'
  obtain ⟨header, behind⟩ := segment
  obtain ⟨ptr2, isPtr2⟩ : ∃ ptr2, ptr2 = ptr + 12 + n := ⟨_, rfl⟩
  obtain ⟨ptr3, isPtr3⟩ : ∃ ptr3, ptr3 = ptr2 + 12 + k := ⟨_, rfl⟩
  have span : ptr + b.span = ptr3 := by rw [span_eq]; omega
  rw [extent_cons, ← Nat.add_assoc, span] at end_
  rw [span] at behind
  have next := header.next
  rw [span] at next
  -- the memory before the link back is set
  let m₁ := ((((s.mem.writeLe ptr2 2 heapMagic).writeLe (ptr2 + 2) 2 0).writeLe (ptr2 + 4) 4
    ptr3).writeLe (ptr2 + 8) 4 ptr).writeLe (ptr + 4) 4 ptr2
  have outside (x : ℕ) (here : x < ptr + 4 ∨ ptr + 8 ≤ x) (there : x < ptr2 ∨ ptr2 + 12 ≤ x) :
      m₁ x = s.mem x := by
    simp (disch := omega) only [m₁, ByteMemory.writeLe_of_disjoint]
  have link : (((s.mem.writeLe ptr2 2 heapMagic).writeLe (ptr2 + 2) 2 0).readLe (ptr + 4) 4) =
      ptr3 := by
    simp (disch := omega) only [ByteMemory.readLe_writeLe_of_disjoint, next]
  have next2 : m₁.readLe (ptr2 + 4) 4 = ptr3 := by
    simp (disch := omega) only [m₁, ByteMemory.readLe_writeLe_of_disjoint,
      ByteMemory.readLe_writeLe]
  have mem : s'.mem = if ptr3 ≠ s.heapEnd then m₁.writeLe (ptr3 + 8) 4 ptr2 else m₁ := by
    have place : ptr + sizeofStructMem + n = ptr2 := isPtr2.symm
    simp only [s', insertHeader, setMagic, setUsed, setNext, setPrev, SmallMem.next, place, link]
    change (if m₁.readLe (ptr2 + 4) 4 ≠ s.heapEnd then _ else _ : SmallMem).mem = _
    rw [next2]
    split <;> rfl
  have late (x : ℕ) (below : x < ptr3 + 8) : s'.mem x = m₁ x := by
    rw [mem]
    split
    · exact ByteMemory.writeLe_of_disjoint (by omega)
    · rfl
  -- a field of one of the two headers
  have field (a w : ℕ) (high : a + w ≤ ptr2 + 12) : s'.mem.readLe a w = m₁.readLe a w :=
    ByteMemory.readLe_congr fun x _ behind => late x (by omega)
  have old (a w : ℕ) (within : ptr ≤ a ∧ a + w ≤ ptr + 4 ∨ ptr + 8 ≤ a ∧ a + w ≤ ptr + 12) :
      s'.mem.readLe a w = s.mem.readLe a w := by
    rw [field a w (by omega)]
    exact ByteMemory.readLe_congr fun x low high => outside x (by omega) (by omega)
  have frontHeader : Header s'.mem prev ptr (b.front n) := by
    refine ⟨?_, ?_, ?_, ?_, header.data.front.congr fun x low high => ?_⟩
    · rw [old ptr 2 (by omega)]
      exact header.magic
    · rw [old (ptr + 2) 2 (by omega), HeapBlock.isFree_front]
      exact header.used
    · rw [field (ptr + 4) 4 (by omega), ByteMemory.readLe_writeLe (by omega),
        span_front (by omega), isPtr2, Nat.add_assoc]
    · rw [old (ptr + 8) 4 (by omega)]
      exact header.prev
    · rw [size_front (by omega)] at high
      rw [late x (by omega), outside x (by omega) (by omega)]
  have newHeader : Header s'.mem ptr ptr2 (.free k) := by
    refine ⟨?_, ?_, ?_, ?_, trivial⟩
    · rw [field ptr2 2 (by omega)]
      simp (disch := omega) only [m₁, ByteMemory.readLe_writeLe_of_disjoint]
      exact ByteMemory.readLe_writeLe (by decide)
    · rw [field (ptr2 + 2) 2 (by omega)]
      simp (disch := omega) only [m₁, ByteMemory.readLe_writeLe_of_disjoint]
      exact ByteMemory.readLe_writeLe (by decide)
    · rw [field (ptr2 + 4) 4 (by omega), next2, isPtr3, span_free, Nat.add_assoc]
    · rw [field (ptr2 + 8) 4 (by omega)]
      simp (disch := omega) only [m₁, ByteMemory.readLe_writeLe_of_disjoint]
      exact ByteMemory.readLe_writeLe (by omega)
  have rest : Segment s'.mem ptr2 ptr3 after := by
    rw [mem]
    exact segment_relink_of_ne
      (behind.congr fun x low _ => outside x (by omega) (by omega)) end_ (by omega)
  refine ⟨⟨frontHeader, ?_⟩, fun x low => ?_⟩
  · rw [span_front (by omega), ← Nat.add_assoc, ← isPtr2]
    refine ⟨newHeader, ?_⟩
    rw [span_free, ← Nat.add_assoc, ← isPtr3]
    exact rest
  · rw [late x (by omega), outside x (by omega) (by omega)]

/-- **A header between two free blocks is taken out.** -/
theorem segment_join {mem nmem n k : ℕ} {after : List HeapBlock}
    (segment : Segment s.mem prev mem (.free n :: .free k :: after)) (isNext : mem + 12 + n = nmem)
    (small : nmem + 12 + k < 0x100000000) :
    let s' := s.join mem nmem
    Segment s'.mem prev mem (.free (n + 12 + k) :: after) ∧ ∀ x < mem, s'.mem x = s.mem x := by
  intro s'
  obtain ⟨header, second, behind⟩ := segment
  obtain ⟨ptr3, isPtr3⟩ : ∃ ptr3, ptr3 = nmem + 12 + k := ⟨_, rfl⟩
  rw [span_free, ← Nat.add_assoc, isNext] at second behind
  rw [span_free, ← Nat.add_assoc, ← isPtr3] at behind
  have next := second.next
  rw [span_free, ← Nat.add_assoc, ← isPtr3] at next
  have next' : (s.mem.writeLe (mem + 4) 4 ptr3).readLe (nmem + 4) 4 = ptr3 := by
    rw [ByteMemory.readLe_writeLe_of_disjoint (by omega), next]
  have mem_ : s'.mem = (s.mem.writeLe (mem + 4) 4 ptr3).writeLe (ptr3 + 8) 4 mem := by
    simp only [s', join, setNext, setPrev, SmallMem.next, next, next']
  have late (x : ℕ) (below : x < mem + 4 ∨ mem + 8 ≤ x) (above : x < ptr3 + 8) :
      s'.mem x = s.mem x := by
    rw [mem_]
    simp (disch := omega) only [ByteMemory.writeLe_of_disjoint]
  have old (a w : ℕ) (within : a + w ≤ mem + 4 ∨ mem + 8 ≤ a ∧ a + w ≤ mem + 12) :
      s'.mem.readLe a w = s.mem.readLe a w :=
    ByteMemory.readLe_congr fun x low high => late x (by omega) (by omega)
  refine ⟨⟨⟨?_, ?_, ?_, ?_, trivial⟩, ?_⟩, fun x low => late x (by omega) (by omega)⟩
  · rw [old mem 2 (by omega)]
    exact header.magic
  · rw [old (mem + 2) 2 (by omega)]
    exact header.used
  · rw [mem_, ByteMemory.readLe_writeLe_of_disjoint (by omega),
      ByteMemory.readLe_writeLe (by omega), span_free]
    omega
  · rw [old (mem + 8) 4 (by omega)]
    exact header.prev
  · have place : mem + (free (n + 12 + k)).span = ptr3 := by
      rw [span_free]
      omega
    have rest : Segment (s.mem.writeLe (mem + 4) 4 ptr3) nmem ptr3 after :=
      behind.congr fun x low _ => ByteMemory.writeLe_of_disjoint (by omega)
    rw [place, mem_]
    exact rest.relink (by omega)

end SmallMem

/-! ## In the middle of a row -/

/-- What happens behind a part of the row leaves it. -/
theorem Segment.behind {before more more' : List HeapBlock}
    (row : Segment m prev at_ (before ++ more))
    (changes : Segment m (lastHeader prev at_ before) (at_ + extent before) more →
      Segment m' (lastHeader prev at_ before) (at_ + extent before) more' ∧
        ∀ x < at_ + extent before, m' x = m x) :
    Segment m' prev at_ (before ++ more') := by
  obtain ⟨front, back⟩ := segment_append.mp row
  obtain ⟨back', alike⟩ := changes back
  exact segment_append.mpr ⟨front.congr fun x _ high => alike x high, back'⟩

/-- A block gets another content. -/
theorem Segment.change {before after : List HeapBlock} {b b' : HeapBlock}
    (row : Segment m prev at_ (before ++ b :: after)) (same : b'.span = b.span)
    (alike : ∀ x, x < at_ + extent before ∨ at_ + extent before + b.span ≤ x → m' x = m x)
    (header : Header m (lastHeader prev at_ before) (at_ + extent before) b →
      Header m' (lastHeader prev at_ before) (at_ + extent before) b') :
    Segment m' prev at_ (before ++ b' :: after) := by
  refine row.behind fun ⟨front, back⟩ => ⟨⟨header front, ?_⟩, fun x low => alike x (.inl low)⟩
  rw [same]
  exact back.congr fun x low _ => alike x (.inr low)

/-- A block is taken or becomes free: its flag is set, and the magic again. -/
theorem Segment.mark {before after : List HeapBlock} {b : HeapBlock}
    (row : Segment m 0 0 (before ++ b :: after)) (b' : HeapBlock) (same : b'.span = b.span)
    (kept : b'.Kept m (extent before + 12)) :
    Segment ((m.writeLe (extent before + 2) 2 (if b'.isFree = true then 0 else 1)).writeLe
      (extent before) 2 heapMagic) 0 0 (before ++ b' :: after) := by
  have span := b.span_eq
  refine row.change same (fun x outside => ?_) fun header => ?_
  · simp (disch := omega) only [ByteMemory.writeLe_of_disjoint]
  · rw [Nat.zero_add] at header ⊢
    refine ⟨ByteMemory.readLe_writeLe (by decide), ?_, ?_, ?_, kept.congr fun x low _ => ?_⟩
    · rw [ByteMemory.readLe_writeLe_of_disjoint (by omega)]
      refine ByteMemory.readLe_writeLe ?_
      split <;> decide
    · simp (disch := omega) only [ByteMemory.readLe_writeLe_of_disjoint, header.next, same]
    · simp (disch := omega) only [ByteMemory.readLe_writeLe_of_disjoint, header.prev]
    · simp (disch := omega) only [ByteMemory.writeLe_of_disjoint]

/-- The bytes of a block that is taken are not known. -/
theorem kept_replicate_none (m : ByteMemory) (p n : ℕ) :
    (HeapBlock.used (List.replicate n none)).Kept m p := by
  intro i b known
  rw [List.getElem?_replicate] at known
  split at known <;> cases known

end WhaleShark.Kernel

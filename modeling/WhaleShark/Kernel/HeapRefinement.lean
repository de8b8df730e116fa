import WhaleShark.Kernel.HeapLayout

/-!
# The heap keeps to its blocks

The heap is in step with a store when the blocks of the store lie in its memory, and `lfree` stands
at the first free one (`Lies`). The search of `rt_malloc` then finds what `locate` finds, although
it begins at `lfree` (`mallocSearch_firstFree`), and `plugHoles` joins as `coalesce` does
(`plugHoles_eq`), although it looks at the two neighbours only. So each call does to the memory what
it does to the store.
-/

set_option autoImplicit false

namespace WhaleShark.Kernel

open Foundations HeapBlock

variable {prev at_ : ℕ} {row before after : List HeapBlock} {b : HeapBlock}

/-! ## The first free block -/

theorem le_firstFree (at_ : ℕ) (row : List HeapBlock) : at_ ≤ firstFree at_ row := by
  induction row generalizing at_ with
  | nil => exact Nat.le_refl _
  | cons b row ih =>
      cases b with
      | free n => exact Nat.le_refl _
      | used data => exact Nat.le_trans (Nat.le_add_right _ _) (ih _)

/-- It is in front, or what is in front is used. -/
theorem firstFree_append (at_ : ℕ) (before : List HeapBlock) :
    (firstFree at_ before < at_ + extent before ∧
        ∀ more, firstFree at_ (before ++ more) = firstFree at_ before) ∨
      ∀ more, firstFree at_ (before ++ more) = firstFree (at_ + extent before) more := by
  induction before generalizing at_ with
  | nil => exact .inr fun more => rfl
  | cons b before ih =>
      cases b with
      | free n =>
          refine .inl ⟨?_, fun more => rfl⟩
          rw [extent_cons, span_free, firstFree]
          omega
      | used data =>
          rw [extent_cons, span_used, ← Nat.add_assoc]
          exact ih (at_ + (12 + data.length))

theorem firstFree_le (at_ n : ℕ) (before after : List HeapBlock) :
    firstFree at_ (before ++ .free n :: after) ≤ at_ + extent before := by
  rcases firstFree_append at_ before with ⟨low, front⟩ | behind
  · rw [front]
    exact Nat.le_of_lt low
  · rw [behind]
    exact Nat.le_refl _

theorem Alike.append {row' : List HeapBlock} (alike : Alike row row') (before : List HeapBlock) :
    Alike (before ++ row) (before ++ row') := by
  refine ⟨?_, ?_, fun at_ => ?_⟩
  · rw [extent_append, extent_append, alike.extent]
  · rw [usedBytes_append, usedBytes_append, alike.usedBytes]
  · rcases firstFree_append at_ before with ⟨-, front⟩ | behind
    · rw [front, front]
    · rw [behind, behind, alike.firstFree]

/-- A block becomes free. -/
theorem firstFree_release (at_ : ℕ) (before after : List HeapBlock) (data : List (Option UInt8)) :
    firstFree at_ (before ++ .free data.length :: after) =
      if at_ + extent before < firstFree at_ (before ++ .used data :: after) then
        at_ + extent before
      else firstFree at_ (before ++ .used data :: after) := by
  rcases firstFree_append at_ before with ⟨low, front⟩ | behind
  · rw [front, front, if_neg (by omega)]
  · have later := le_firstFree (at_ + extent before + (12 + data.length)) after
    rw [behind, behind, firstFree, firstFree, sizeofStructMem, if_pos (by omega)]

/-- A block is cut, and what is left becomes free. -/
theorem firstFree_cut (before after : List HeapBlock) (data : List (Option UInt8)) {n k : ℕ}
    (within : n < data.length) :
    (if extent before + sizeofStructMem + n < firstFree 0 (before ++ .used data :: after) then
        extent before + sizeofStructMem + n
      else firstFree 0 (before ++ .used data :: after)) =
      firstFree 0 (before ++ ([.used (data.take n), .free k] ++ after)) := by
  rcases firstFree_append 0 before with ⟨low, inFront⟩ | inBehind
  · rw [inFront, inFront, if_neg (by omega)]
  · have later := le_firstFree (extent before + (12 + data.length)) after
    rw [inBehind, inBehind, Nat.zero_add, firstFree, sizeofStructMem, if_pos (by omega)]
    simp only [List.cons_append, List.nil_append, firstFree, sizeofStructMem,
      List.length_take_of_le (Nat.le_of_lt within)]
    omega

/-! ## The loops -/

/-- Behind a place there is no room. -/
theorem locate_of_le {total size : ℕ} (full : total ≤ at_ + size) :
    locate total size at_ row = none := by
  induction row generalizing at_ with
  | nil => rfl
  | cons b rest ih =>
      rw [locate, if_neg (by omega)]
      exact ih (by omega)

namespace SmallMem

variable {s : SmallMem}

theorem used_eq_zero_iff (header : Header s.mem prev at_ b) : s.used at_ = 0 ↔ b.isFree = true := by
  rw [SmallMem.used, header.used]
  cases b <;> simp [isFree]

theorem next_eq (header : Header s.mem prev at_ b) : s.next at_ = at_ + b.span := header.next

/-- The size of a block, as the loops compute it. -/
theorem room_eq (header : Header s.mem prev at_ b) (small : at_ + b.span < 0x100000000) :
    sizeSub (s.next at_) (at_ + sizeofStructMem) = b.size := by
  rw [next_eq header, sizeSub_of_le _ small, span_eq, sizeofStructMem]
  · omega
  · rw [span_eq, sizeofStructMem]
    omega

/-- The search from the begin of a row. -/
theorem mallocSearch_eq {size rounds : ℕ} (segment : Segment s.mem prev at_ row)
    (end_ : at_ + extent row = s.heapEnd) (small : s.heapEnd < 0x100000000)
    (within : size ≤ s.memSizeAligned) (enough : row.length < rounds) :
    s.mallocSearch size rounds at_ =
      some ((locate s.memSizeAligned size at_ row).map (· - sizeofStructMem)) := by
  have limit : sizeSub s.memSizeAligned size = s.memSizeAligned - size := by
    rw [heapEnd, sizeofStructMem] at small
    exact sizeSub_of_le within (by omega)
  induction row generalizing prev at_ rounds with
  | nil =>
      obtain ⟨rounds, rfl⟩ := Nat.exists_eq_add_of_lt enough
      rw [heapEnd, sizeofStructMem, extent_nil] at end_
      rw [mallocSearch, limit, if_neg (by omega)]
      rfl
  | cons b rest ih =>
      obtain ⟨header, behind⟩ := segment
      rw [extent_cons, ← Nat.add_assoc] at end_
      cases rounds with
      | zero => cases enough
      | succ rounds =>
          rw [mallocSearch, limit]
          split
          · rename_i front
            have free := used_eq_zero_iff header
            rw [room_eq header (by omega), next_eq header, locate]
            by_cases fits : b.isFree = true ∧ size ≤ b.size
            · rw [if_pos ⟨free.mpr fits.1, fits.2⟩, if_pos ⟨fits.1, fits.2, by omega⟩]
              rfl
            · rw [if_neg fun found => fits ⟨free.mp found.1, found.2⟩,
                if_neg fun found => fits ⟨found.1, found.2.1⟩]
              exact ih behind end_ (by simpa using enough)
          · rw [locate_of_le (by omega)]
            rfl

/-- **The search from the first free block on is one from the begin.** -/
theorem mallocSearch_firstFree {size rounds : ℕ} (segment : Segment s.mem prev at_ row)
    (end_ : at_ + extent row = s.heapEnd) (small : s.heapEnd < 0x100000000)
    (within : size ≤ s.memSizeAligned) (enough : row.length < rounds) :
    s.mallocSearch size rounds (firstFree at_ row) =
      some ((locate s.memSizeAligned size at_ row).map (· - sizeofStructMem)) := by
  induction row generalizing prev at_ with
  | nil => exact mallocSearch_eq segment end_ small within enough
  | cons b rest ih =>
      cases b with
      | free n => exact mallocSearch_eq segment end_ small within enough
      | used data =>
          rw [extent_cons, ← Nat.add_assoc] at end_
          rw [firstFree, locate, if_neg fun found => Bool.noConfusion found.1]
          exact ih segment.2 end_ (Nat.lt_of_succ_lt enough)

/-- `lfree` is advanced to the first free block. -/
theorem advanceLfree_eq {rounds : ℕ} (segment : Segment s.mem prev at_ row) (from_ : s.lfree = at_)
    (end_ : at_ + extent row = s.heapEnd) (enough : row.length < rounds) :
    advanceLfree rounds s = some { s with lfree := firstFree at_ row } := by
  induction row generalizing prev at_ rounds s with
  | nil =>
      obtain ⟨rounds, rfl⟩ := Nat.exists_eq_add_of_lt enough
      rw [extent_nil, Nat.add_zero] at end_
      rw [advanceLfree, if_neg fun go => go.2 (from_.trans end_), firstFree, ← from_]
  | cons b rest ih =>
      obtain ⟨header, behind⟩ := segment
      cases rounds with
      | zero => cases enough
      | succ rounds =>
          cases b with
          | free n =>
              have free : s.used s.lfree = 0 := (used_eq_zero_iff (from_ ▸ header)).mpr rfl
              rw [advanceLfree, if_neg fun go => go.1 free, firstFree, ← from_]
          | used data =>
              have busy : s.used s.lfree ≠ 0 := fun free =>
                Bool.noConfusion ((used_eq_zero_iff (from_ ▸ header)).mp free)
              rw [extent_cons, ← Nat.add_assoc] at end_
              have inside : s.lfree ≠ s.heapEnd := by
                rw [span_used] at end_
                omega
              rw [advanceLfree, if_pos ⟨busy, inside⟩, from_, next_eq header]
              exact ih (s := { s with lfree := at_ + (HeapBlock.used data).span }) behind rfl end_
                (by simpa using enough)

end SmallMem

/-! ## Joining neighbours -/

/-- What is joined behind does not depend on the way. -/
theorem coalesce_append_congr {row row' : List HeapBlock} (same : coalesce row = coalesce row') :
    coalesce (before ++ row) = coalesce (before ++ row') := by
  induction before with
  | nil => exact same
  | cons b before ih => rw [List.cons_append, List.cons_append, coalesce, coalesce, ih]

theorem settled_free_size {n k : ℕ} (settled : Settled (.free n :: after)) :
    Settled (.free k :: after) := by
  cases after with
  | nil => exact .singleton _
  | cons c after =>
      obtain ⟨apart, rest⟩ := List.isChain_cons_cons.mp settled
      exact .cons_cons apart rest

/-- A free block between settled rows may have another size. -/
theorem settled_middle {n k : ℕ} (front : Settled (before ++ [.free n]))
    (behind : Settled (.free n :: after)) : Settled (before ++ .free k :: after) := by
  obtain ⟨settled, -, apart⟩ := List.isChain_append.mp front
  refine List.isChain_append.mpr ⟨settled, settled_free_size behind, fun x last y head => ?_⟩
  obtain rfl : .free k = y := by simpa using head
  exact apart x last (.free n) rfl

theorem lastHeader_append_singleton (prev at_ : ℕ) (row : List HeapBlock) (b : HeapBlock) :
    lastHeader prev at_ (row ++ [b]) = at_ + extent row := by
  induction row generalizing prev at_ with
  | nil => rfl
  | cons c row ih => rw [List.cons_append, lastHeader, ih, extent_cons, Nat.add_assoc]

namespace SmallMem

variable {s : SmallMem} {n : ℕ}

/-- The free block takes that behind it. -/
theorem plugHoles_forward (segment : Segment s.mem 0 0 (before ++ .free n :: after))
    (end_ : extent (before ++ .free n :: after) = s.heapEnd) (small : s.heapEnd < 0x100000000)
    (lfree : s.lfree ≤ extent before) :
    let mem := extent before
    let nmem := s.next mem
    ∃ m k rest, glue (.free n) after = .free k :: rest ∧ Segment m 0 0 (before ++ .free k :: rest) ∧
      (if mem ≠ nmem ∧ s.used nmem = 0 ∧ nmem ≠ s.heapEnd then
        ({ s with lfree := if s.lfree = nmem then mem else s.lfree } : SmallMem).join mem nmem
      else s) = { s with mem := m } := by
  intro mem nmem
  have here := (segment_append.mp segment).2
  rw [Nat.zero_add] at here
  have place : nmem = mem + 12 + n := by
    rw [Nat.add_assoc]
    exact next_eq here.1
  rw [extent_append, extent_cons, span_free] at end_
  cases after with
  | nil =>
      have last : nmem = s.heapEnd := by
        rw [place, ← end_, extent_nil]
        exact Nat.add_assoc mem 12 n
      exact ⟨s.mem, n, [], rfl, segment, if_neg fun go => go.2.2 last⟩
  | cons c rest =>
      have second := here.2.1
      rw [span_free, ← Nat.add_assoc, ← place] at second
      cases c with
      | used data =>
          have busy : s.used nmem ≠ 0 := fun free =>
            Bool.noConfusion ((used_eq_zero_iff second).mp free)
          exact ⟨s.mem, n, .used data :: rest, rfl, segment, if_neg fun go => busy go.2.1⟩
      | free k =>
          rw [extent_cons, span_free] at end_
          have other : s.lfree ≠ nmem := by omega
          refine ⟨(s.join mem nmem).mem, n + 12 + k, rest, rfl, ?_, ?_⟩
          · refine segment.behind fun here => ?_
            rw [Nat.zero_add] at here ⊢
            exact segment_join here place.symm (by omega)
          · rw [if_pos ⟨by omega, (used_eq_zero_iff second).mpr rfl, by omega⟩, if_neg other]
            rfl

/-- The free block in front takes it. -/
theorem plugHoles_backward (segment : Segment s.mem 0 0 (before ++ .free n :: after))
    (end_ : extent (before ++ .free n :: after) = s.heapEnd) (small : s.heapEnd < 0x100000000)
    (front : Settled before) (behind : Settled (.free n :: after))
    (lfree : s.lfree = firstFree 0 (before ++ .free n :: after)) :
    let mem := extent before
    let pmem := s.prev mem
    ∃ m, Segment m 0 0 (coalesce (before ++ .free n :: after)) ∧
      (if pmem ≠ mem ∧ s.used pmem = 0 then
        ({ s with lfree := if s.lfree = mem then pmem else s.lfree } : SmallMem).join pmem mem
      else s) = { s with mem := m } := by
  intro mem pmem
  have here := (segment_append.mp segment).2.1
  rw [Nat.zero_add] at here
  have back : pmem = lastHeader 0 0 before := here.prev
  rcases before.eq_nil_or_concat' with rfl | ⟨before, c, rfl⟩
  · rw [List.nil_append] at segment ⊢
    rw [coalesce_of_settled behind]
    exact ⟨s.mem, segment, if_neg fun go => go.1 back⟩
  · rw [lastHeader_append_singleton, Nat.zero_add] at back
    rw [List.append_assoc, List.singleton_append] at segment end_ lfree ⊢
    have place : mem = pmem + c.span := by
      simp only [mem, back, extent_append, extent_cons, extent_nil, Nat.add_zero]
    have header := (segment_append.mp segment).2.1
    rw [Nat.zero_add, ← back] at header
    cases c with
    | used data =>
        have busy : s.used pmem ≠ 0 := fun free =>
          Bool.noConfusion ((used_eq_zero_iff header).mp free)
        have settled : Settled (before ++ .used data :: .free n :: after) :=
          settled_used_iff.mpr ⟨front.left_of_append, behind⟩
        rw [coalesce_of_settled settled]
        exact ⟨s.mem, segment, if_neg fun go => busy go.2⟩
    | free k =>
        have joined : coalesce (before ++ .free k :: .free n :: after) =
            before ++ .free (k + 12 + n) :: after := by
          have glued : coalesce (.free k :: .free n :: after) = .free (k + 12 + n) :: after := by
            rw [coalesce, coalesce_of_settled behind, glue_free_free]
          rw [coalesce_append, glued]
          rw [glued]
          exact settled_middle front (settled_free_size behind)
        have low : s.lfree ≤ pmem := by
          rw [lfree, back]
          exact Nat.zero_add (extent before) ▸ firstFree_le 0 k before (.free n :: after)
        rw [span_free] at place
        simp only [extent_append, extent_cons, span_free] at end_
        have other : s.lfree ≠ mem := by omega
        rw [joined]
        refine ⟨(s.join pmem mem).mem, segment.behind fun here => ?_, ?_⟩
        · rw [Nat.zero_add, ← back] at here ⊢
          exact segment_join here (by omega) (by omega)
        · rw [if_pos ⟨by omega, (used_eq_zero_iff header).mpr rfl⟩, if_neg other]
          rfl

/-- **`plug_holes` joins the block with its free neighbours.** -/
theorem plugHoles_eq (segment : Segment s.mem 0 0 (before ++ .free n :: after))
    (end_ : extent (before ++ .free n :: after) = s.heapEnd) (small : s.heapEnd < 0x100000000)
    (front : Settled before) (behind : Settled after)
    (lfree : s.lfree = firstFree 0 (before ++ .free n :: after)) :
    ∃ m, Segment m 0 0 (coalesce (before ++ .free n :: after)) ∧
      s.plugHoles (extent before) = { s with mem := m } := by
  have low : s.lfree ≤ extent before := by
    rw [lfree]
    exact Nat.zero_add (extent before) ▸ firstFree_le 0 n before after
  obtain ⟨m₁, k, rest, glued, segment₁, forward⟩ := plugHoles_forward segment end_ small low
  have settled : Settled (.free k :: rest) := glued ▸ settled_glue behind
  have alike : coalesce (before ++ .free k :: rest) = coalesce (before ++ .free n :: after) := by
    refine coalesce_append_congr ?_
    rw [coalesce_of_settled settled, ← glued, coalesce, coalesce_of_settled behind]
  have kept : Alike (before ++ .free n :: after) (before ++ .free k :: rest) :=
    (glued ▸ alike_glue (.free n) after).append before
  obtain ⟨m₂, segment₂, backward⟩ := plugHoles_backward (s := { s with mem := m₁ }) segment₁
    (kept.extent.trans end_) small front settled (lfree.trans (kept.firstFree 0).symm)
  refine ⟨m₂, alike ▸ segment₂, ?_⟩
  rw [plugHoles]
  simp only [forward]
  exact backward

end SmallMem

/-! ## The calls on a row of blocks -/

theorem usedBytes_le_extent (row : List HeapBlock) : usedBytes row ≤ extent row := by
  induction row with
  | nil => exact Nat.le_refl _
  | cons b row ih =>
      rw [extent_cons]
      cases b with
      | free n => exact Nat.le_add_left_of_le ih
      | used data => exact Nat.add_le_add_left ih _

theorem length_le_extent (row : List HeapBlock) : 12 * row.length ≤ extent row := by
  induction row with
  | nil => exact Nat.le_refl _
  | cons b row ih =>
      rw [extent_cons, span_eq, List.length_cons]
      omega

theorem usedBytes_cut (before after : List HeapBlock) (data : List (Option UInt8)) {n k : ℕ}
    (within : n ≤ data.length) :
    usedBytes (before ++ ([.used (data.take n), .free k] ++ after)) + (data.length - n) =
      usedBytes (before ++ .used data :: after) := by
  simp only [usedBytes_append, usedBytes, List.length_take_of_le within, List.cons_append,
    List.nil_append]
  omega

namespace SmallMem

variable {s : SmallMem}

/-- The loops end in time. -/
theorem length_lt_rounds (end_ : extent row = s.heapEnd) (large : 12 ≤ s.memSizeAligned) :
    row.length < s.rounds := by
  have few := length_le_extent row
  rw [end_, heapEnd, sizeofStructMem] at few
  rw [rounds]
  omega

theorem insertHeader_eq (s : SmallMem) (ptr ptr2 : ℕ) :
    s.insertHeader ptr ptr2 = { s with mem := (s.insertHeader ptr ptr2).mem } := by
  rw [insertHeader]
  split <;> rfl

/-- What is taken of a free block. -/
theorem takeBlock_eq {n size : ℕ} (segment : Segment s.mem 0 0 (before ++ .free n :: after))
    (end_ : extent (before ++ .free n :: after) = s.heapEnd) (small : s.heapEnd + 12 ≤ 0x100000000)
    (usedMem : s.usedMem = usedBytes (before ++ .free n :: after)) :
    ∃ m, Segment m 0 0 (before ++ (carve size (.free n) ++ after)) ∧
      (s.takeBlock (extent before) size).setMagic (extent before) = { s with
        mem := m
        usedMem := usedBytes (before ++ (carve size (.free n) ++ after))
        maxMem := max s.maxMem (usedBytes (before ++ (carve size (.free n) ++ after))) } := by
  have header := (segment_append.mp segment).2.1
  rw [Nat.zero_add] at header
  rw [extent_append, extent_cons, span_free] at end_
  have most (v : ℕ) : (if s.maxMem < v then v else s.maxMem) = max s.maxMem v := by
    split <;> omega
  rw [takeBlock, room_eq header (by rw [span_free]; omega), size_free, carve, size_free]
  by_cases large : size + 24 ≤ n
  · have large' : size + sizeofStructMem + minSizeAligned ≤ n := large
    rw [if_pos large, if_pos large']
    have inserted : Segment
        (s.insertHeader (extent before) (extent before + sizeofStructMem + size)).mem 0 0
        (before ++ .free size :: .free (n - size - 12) :: after) := by
      refine segment.behind fun here => ?_
      rw [Nat.zero_add] at here ⊢
      exact segment_insertHeader here (by rw [size_free]; omega)
        (by rw [extent_cons, span_free]; exact end_) small
    refine ⟨_, inserted.mark (.used (List.replicate size none)) (by simp)
      (kept_replicate_none _ _ _), ?_⟩
    have bytes : s.usedMem + (size + sizeofStructMem) = usedBytes (before ++
        ([.used (List.replicate size none), .free (n - size - 12)] ++ after)) := by
      rw [usedMem, usedBytes_append, usedBytes_append]
      simp only [List.cons_append, List.nil_append, usedBytes, List.length_replicate]
      omega
    rw [← bytes, ← most, insertHeader_eq]
    rfl
  · have small' : ¬ size + sizeofStructMem + minSizeAligned ≤ n := large
    rw [if_neg large, if_neg small']
    have marked := segment.mark (.used (List.replicate n none)) (by simp)
      (kept_replicate_none _ _ _)
    refine ⟨_, marked, ?_⟩
    have next_ : (s.setUsed (extent before) 1).next (extent before) = extent before + (12 + n) := by
      have next_ := header.next
      rw [span_free] at next_
      rw [← next_]
      exact ByteMemory.readLe_writeLe_of_disjoint (by omega)
    have bytes : s.usedMem + sizeSub ((s.setUsed (extent before) 1).next (extent before))
        (extent before) = usedBytes (before ++ ([.used (List.replicate n none)] ++ after)) := by
      rw [next_, sizeSub_of_le (by omega) (by omega), usedMem, usedBytes_append, usedBytes_append]
      simp only [List.cons_append, List.nil_append, usedBytes, List.length_replicate,
        sizeofStructMem]
      omega
    rw [← bytes, ← most]
    rfl

/-- `lfree` when the first free block has been taken, or another one. -/
theorem lfree_eq {n : ℕ} {more : List HeapBlock} (segment : Segment s.mem 0 0 (before ++ more))
    (end_ : extent (before ++ more) = s.heapEnd) (large : 12 ≤ s.memSizeAligned)
    (lfree : s.lfree = firstFree 0 (before ++ .free n :: after)) :
    (if extent before = s.lfree then advanceLfree s.rounds s else some s) =
      some { s with lfree := firstFree 0 (before ++ more) } := by
  have enough := length_lt_rounds end_ large
  rw [List.length_append] at enough
  rcases firstFree_append 0 before with ⟨low, front⟩ | behind
  · rw [front] at lfree
    rw [Nat.zero_add] at low
    rw [if_neg (by omega), front, ← lfree]
  · rw [behind, Nat.zero_add, firstFree] at lfree
    have here := (segment_append.mp segment).2
    rw [Nat.zero_add] at here
    rw [extent_append] at end_
    rw [if_pos lfree.symm, behind, Nat.zero_add]
    exact advanceLfree_eq here lfree end_ (by omega)

/-- `rt_malloc` when there is no room -/
theorem rtMalloc_none {size : UInt32} (some_ : size ≠ 0)
    (fits : ¬ s.memSizeAligned < (rtAlign size).toNat)
    (search : s.mallocSearch (needed size) s.rounds s.lfree = some none) :
    s.rtMalloc size = some (s, none) := by
  rw [needed] at search
  simp only [rtMalloc, if_neg some_, if_neg fits, search]

theorem rtMalloc_some {size : UInt32} (some_ : size ≠ 0)
    (fits : ¬ s.memSizeAligned < (rtAlign size).toNat) {ptr : ℕ}
    (search : s.mallocSearch (needed size) s.rounds s.lfree = some (some ptr)) {s₁ s₂ : SmallMem}
    (takes : (s.takeBlock ptr (needed size)).setMagic ptr = s₁)
    (advances : (if ptr = s₁.lfree then advanceLfree s₁.rounds s₁ else some s₁) = some s₂) :
    s.rtMalloc size = some (s₂, some (ptr + 12)) := by
  rw [needed] at search takes
  simp only [rtMalloc, if_neg some_, if_neg fits, search, takes, advances]
  rfl

/-- `rt_free` up to the joining -/
theorem rtFree_eq {data : List (Option UInt8)}
    (segment : Segment s.mem 0 0 (before ++ .used data :: after))
    (end_ : extent (before ++ .used data :: after) = s.heapEnd) (small : s.heapEnd < 0x100000000)
    (words : 4 ≤ data.length) (lfree : s.lfree = firstFree 0 (before ++ .used data :: after))
    (usedMem : s.usedMem = usedBytes (before ++ .used data :: after)) :
    ∃ m, Segment m 0 0 (before ++ .free data.length :: after) ∧
      s.rtFree (some (extent before + 12)) = (SmallMem.plugHoles { s with
        mem := m
        lfree := firstFree 0 (before ++ .free data.length :: after)
        usedMem := usedBytes (before ++ .free data.length :: after) } (extent before), false) := by
  have header := (segment_append.mp segment).2.1
  rw [Nat.zero_add] at header
  obtain ⟨m, isM⟩ : ∃ m, m = ((s.setUsed (extent before) 0).setMagic (extent before)).mem :=
    ⟨_, rfl⟩
  have marked : Segment m 0 0 (before ++ .free data.length :: after) :=
    isM ▸ segment.mark (.free data.length) (by simp) trivial
  rw [extent_append, extent_cons, span_used] at end_
  have room : sizeSub (m.readLe (extent before + 4) 4) (extent before) = 12 + data.length := by
    have header' := (segment_append.mp marked).2.1.next
    rw [Nat.zero_add, span_free] at header'
    rw [header', sizeSub_of_le (by omega) (by omega)]
    omega
  have inside : ¬ s.heapEnd ≤ extent before + 12 := by omega
  have place : extent before + 12 - sizeofStructMem = extent before := Nat.add_sub_cancel _ _
  have good : ¬ (s.used (extent before) = 0 ∨ s.magic (extent before) ≠ heapMagic) := by
    rintro (free | other)
    · exact Bool.noConfusion ((used_eq_zero_iff header).mp free)
    · exact other header.magic
  have rest : sizeSub (usedBytes (before ++ .used data :: after)) (12 + data.length) =
      usedBytes (before ++ .free data.length :: after) := by
    have most := usedBytes_le_extent (before ++ .used data :: after)
    rw [extent_append, extent_cons, span_used] at most
    rw [usedBytes_append, usedBytes, sizeofStructMem] at most ⊢
    rw [sizeSub_of_le (by omega) (by omega), usedBytes_append, usedBytes]
    omega
  have first := firstFree_release 0 before after data
  rw [Nat.zero_add] at first
  refine ⟨m, marked, ?_⟩
  rw [rtFree, if_neg inside, place]
  refine Prod.ext ?_ (decide_eq_false good)
  change plugHoles { s with
    mem := ((s.setUsed (extent before) 0).setMagic (extent before)).mem
    lfree := if extent before < s.lfree then extent before else s.lfree
    usedMem := sizeSub s.usedMem (sizeSub (ByteMemory.readLe
      ((s.setUsed (extent before) 0).setMagic (extent before)).mem (extent before + 4) 4)
      (extent before)) } _ = _
  rw [← isM, room, lfree, usedMem, rest, ← first]

/-- A block is cut in its place. -/
theorem cut_eq {data : List (Option UInt8)} {n : ℕ}
    (segment : Segment s.mem 0 0 (before ++ .used data :: after))
    (end_ : extent (before ++ .used data :: after) = s.heapEnd)
    (small : s.heapEnd + 12 ≤ 0x100000000)
    (room : n + 24 < data.length) (settled : Settled (before ++ .used data :: after))
    (lfree : s.lfree = firstFree 0 (before ++ .used data :: after))
    (usedMem : s.usedMem = usedBytes (before ++ .used data :: after)) :
    let row := before ++ ([.used (data.take n), .free (data.length - n - 12)] ++ after)
    ∃ m, Segment m 0 0 (coalesce row) ∧ s.cut (extent before) data.length n = { s with
      mem := m
      lfree := firstFree 0 row
      usedMem := usedBytes row } := by
  intro row
  have long := end_
  rw [extent_append, extent_cons, span_used] at long
  obtain ⟨front, behind⟩ := settled_used_iff.mp settled
  have length : (data.take n).length = n := List.length_take_of_le (by omega)
  -- the cut block belongs to what is in front
  have row_ : row = (before ++ [.used (data.take n)]) ++ .free (data.length - n - 12) :: after := by
    simp [row]
  have place : extent (before ++ [.used (data.take n)]) = extent before + sizeofStructMem + n := by
    simp [length, Nat.add_assoc, sizeofStructMem]
  obtain ⟨rest, isRest⟩ : ∃ rest, sizeSub s.usedMem (sizeSub data.length n) = rest := ⟨_, rfl⟩
  have inserted : Segment (SmallMem.insertHeader { s with usedMem := rest }
      (extent before) (extent before + sizeofStructMem + n)).mem 0 0 row := by
    refine segment.behind fun here => ?_
    rw [Nat.zero_add] at here ⊢
    exact segment_insertHeader (s := { s with usedMem := rest }) here (by rw [size_used]; omega)
      (by rw [extent_cons, span_used]; exact long) small
  generalize isM : (SmallMem.insertHeader { s with usedMem := rest } (extent before)
    (extent before + sizeofStructMem + n)).mem = m at inserted
  have first := firstFree_cut before after data (n := n) (k := data.length - n - 12) (by omega)
  have bytes : rest = usedBytes row := by
    have most := usedBytes_le_extent (before ++ .used data :: after)
    have less : sizeSub data.length n = data.length - n := sizeSub_of_le (by omega) (by omega)
    have cut_ := usedBytes_cut before after data (n := n) (k := data.length - n - 12) (by omega)
    rw [end_] at most
    rw [← isRest, usedMem, less, sizeSub_of_le (by omega) (by omega)]
    exact Nat.sub_eq_of_eq_add cut_.symm
  rw [← lfree] at first
  have fits : extent row = s.heapEnd := by
    rw [← end_]
    simp only [row, extent_append, extent_cons, extent_nil, span_used, span_free, length]
    omega
  obtain ⟨m', joined, plugged⟩ := plugHoles_eq (s := { s with
      mem := m
      lfree := firstFree 0 row
      usedMem := usedBytes row })
    (row_ ▸ inserted) (row_ ▸ fits) (show s.heapEnd < _ by omega)
    (settled_used_iff.mpr ⟨front, .nil⟩) behind (congrArg (firstFree 0) row_)
  refine ⟨m', row_ ▸ joined, ?_⟩
  rw [place] at plugged
  rw [← plugged, cut, isRest, insertHeader_eq]
  change plugHoles { s with
    mem := (insertHeader { s with usedMem := rest } (extent before)
      (extent before + sizeofStructMem + n)).mem
    lfree := if extent before + sizeofStructMem + n < s.lfree then
      extent before + sizeofStructMem + n else s.lfree
    usedMem := rest } (extent before + sizeofStructMem + n) = _
  rw [isM, first, bytes]

end SmallMem

/-! ## The heap and the store -/

/-- The blocks of the store lie in the memory of the heap, and its variables are as they say. -/
structure Lies (s : SmallMem) (a : BlockStore) : Prop where
  sound : a.Sound
  total : s.memSizeAligned = a.total
  small : a.total + 24 ≤ 0x100000000
  segment : Segment s.mem 0 0 a.blocks
  lfree : s.lfree = firstFree 0 a.blocks
  usedMem : s.usedMem = usedBytes a.blocks
  maxMem : s.maxMem = a.maxUsed

namespace Lies

variable {s : SmallMem} {a : BlockStore} {p : ℕ} {data : List (Option UInt8)}

theorem heapEnd (lies : Lies s a) : s.heapEnd = a.total + 12 := by
  rw [SmallMem.heapEnd, lies.total, sizeofStructMem]

theorem end_ (lies : Lies s a) : extent a.blocks = s.heapEnd := by
  rw [lies.heapEnd, lies.sound.extent]

theorem in_bounds (lies : Lies s a) : s.heapEnd < 0x100000000 := by
  have small := lies.small
  rw [lies.heapEnd]
  omega

theorem enough (lies : Lies s a) : a.blocks.length < s.rounds :=
  SmallMem.length_lt_rounds lies.end_ (lies.total ▸ lies.sound.large)

/-- What is known of a block is in the memory. -/
theorem kept (lies : Lies s a) (has : a.dataAt p = some data) :
    (HeapBlock.used data).Kept s.mem p := by
  obtain ⟨before, after, row, rfl, -⟩ := BlockStore.dataAt_eq_some has
  have segment := lies.segment
  rw [row, segment_append, Nat.zero_add] at segment
  exact segment.2.1.data

/-- A thread writes to its block. -/
theorem setData (lies : Lies s a) (has : a.dataAt p = some data) {data' : List (Option UInt8)}
    (same : data'.length = data.length) {m : ByteMemory}
    (alike : ∀ x, x < p ∨ p + data.length ≤ x → m x = s.mem x)
    (kept : (HeapBlock.used data').Kept m p) : Lies { s with mem := m } (a.setData p data') := by
  have sound := lies.sound.setData has same
  obtain ⟨before, after, row, rfl, replaced⟩ := BlockStore.dataAt_eq_some has
  have blocks : (a.setData (extent before + 12) data').blocks = before ++ .used data' :: after :=
    replaced _
  have alike_ : Alike a.blocks (before ++ .used data' :: after) := by
    have here : Alike (.used data :: after) (.used data' :: after) :=
      ⟨by simp [same], by simp [usedBytes, same], fun _ => by simp [firstFree, same]⟩
    exact row ▸ here.append before
  have segment := lies.segment
  rw [row] at segment
  refine ⟨sound, lies.total, lies.small, ?_, ?_, ?_, lies.maxMem⟩
  · rw [blocks]
    refine segment.change (by simp [same]) (fun x outside => alike x ?_) fun header => ?_
    · rw [span_used] at outside
      omega
    · rw [Nat.zero_add] at header ⊢
      exact header.refill (by simp [same]) rfl (fun x _ high => alike x (.inl high)) kept
  · rw [blocks, alike_.firstFree]
    exact lies.lfree
  · rw [blocks, alike_.usedBytes]
    exact lies.usedMem

/-- **`rt_free` gives the block back, and does not complain.** -/
theorem release (lies : Lies s a) (has : a.dataAt p = some data) :
    ∃ s', s.rtFree (some p) = (s', false) ∧ Lies s' (a.release p) := by
  have sound := lies.sound.release has
  obtain ⟨before, after, row, rfl, replaced⟩ := BlockStore.dataAt_eq_some has
  have blocks : (a.release (extent before + 12)).blocks =
      coalesce (before ++ .free data.length :: after) := congrArg coalesce (replaced _)
  have segment := lies.segment
  have end_ := lies.end_
  have lfree := lies.lfree
  have usedMem := lies.usedMem
  rw [row] at segment end_ lfree usedMem
  have words : WholeWords (.used data) := lies.sound.sizes _ (by rw [row]; simp)
  have settled := settled_used_iff.mp (row ▸ lies.sound.settled)
  obtain ⟨m₁, segment₁, freed⟩ :=
    SmallMem.rtFree_eq segment end_ lies.in_bounds (by simpa using words.1) lfree usedMem
  obtain ⟨m₂, segment₂, joined⟩ := SmallMem.plugHoles_eq (s := { s with
      mem := m₁
      lfree := firstFree 0 (before ++ .free data.length :: after)
      usedMem := usedBytes (before ++ .free data.length :: after) })
    segment₁ (end_ ▸ by simp) lies.in_bounds settled.1 settled.2 rfl
  have alike := alike_coalesce (before ++ .free data.length :: after)
  refine ⟨_, freed.trans (congrArg (·, false) joined), sound, lies.total, lies.small, ?_, ?_, ?_,
    lies.maxMem⟩
  · rw [blocks]
    exact segment₂
  · rw [blocks, alike.firstFree]
  · rw [blocks, alike.usedBytes]

/-- **`rt_malloc` takes the first block that is large enough.** -/
theorem malloc (lies : Lies s a) (size : UInt32) :
    ∃ s', s.rtMalloc size = some (s', (a.malloc size).2) ∧ Lies s' (a.malloc size).1 := by
  by_cases refused : size = 0 ∨ a.total < (rtAlign size).toNat
  · have same : a.malloc size = (a, none) := by rw [BlockStore.malloc, if_pos refused]
    refine ⟨s, ?_, by rw [same]; exact lies⟩
    rw [same, SmallMem.rtMalloc, lies.total]
    by_cases zero : size = 0
    · rw [if_pos zero]
    · rw [if_neg zero, if_pos (refused.resolve_left zero)]
  · obtain ⟨some_, fits⟩ := not_or.mp refused
    rw [← lies.total] at fits
    have large := lies.sound.large
    rw [← lies.total] at large
    have within : needed size ≤ s.memSizeAligned := by
      rw [needed, minSizeAligned]
      split <;> omega
    have search := SmallMem.mallocSearch_firstFree lies.segment ((Nat.zero_add _).trans lies.end_)
      lies.in_bounds within lies.enough
    rw [← lies.lfree, lies.total] at search
    rcases a.malloc_cases size with same | ⟨before, n, after, row, room, taken, located⟩
    · have nothing : locate a.total (needed size) 0 a.blocks = none := by
        rw [BlockStore.malloc, if_neg refused] at same
        cases found : locate a.total (needed size) 0 a.blocks with
        | none => rfl
        | some p =>
            rw [found] at same
            cases congrArg Prod.snd same
      rw [nothing] at search
      rw [same]
      exact ⟨s, SmallMem.rtMalloc_none some_ fits search, lies⟩
    · have sound := lies.sound.malloc size
      have lfree := lies.lfree
      rw [taken] at sound ⊢
      rw [located, Option.map_some, sizeofStructMem, Nat.add_sub_cancel] at search
      rw [row] at lfree
      obtain ⟨m, segment, takes⟩ := SmallMem.takeBlock_eq (row ▸ lies.segment) (row ▸ lies.end_)
        (lies.heapEnd ▸ lies.small) (row ▸ lies.usedMem)
      have advances := SmallMem.lfree_eq (s := { s with
          mem := m
          usedMem := usedBytes (before ++ (carve (needed size) (.free n) ++ after))
          maxMem := max s.maxMem (usedBytes (before ++ (carve (needed size) (.free n) ++ after))) })
        segment (sound.extent.trans lies.heapEnd.symm) large lfree
      refine ⟨_, SmallMem.rtMalloc_some some_ fits search takes advances, sound, lies.total,
        lies.small, segment, rfl, rfl, ?_⟩
      rw [lies.maxMem]

end Lies

end WhaleShark.Kernel

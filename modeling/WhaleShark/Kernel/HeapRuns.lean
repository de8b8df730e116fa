import WhaleShark.Foundations.Simulations
import WhaleShark.Kernel.HeapRefinement

/-!
# Runs of the heap

`rt_system_heap_init` sets up one free block (`lies_init`). From there on the heap answers every
call as the store of blocks does, as long as the threads use only blocks that they have and read
only what they have written (`heap_runs_are_block_runs`): its searches end, no block is lost or
given out twice, what a thread has written is what it reads, also behind `rt_realloc`, and `rt_free`
never complains.

So a block that `rt_malloc` returns lies apart from all the others (`malloc_returns_own_block`), and
when everything has been given back the heap is one free block again (`heap_is_whole_again`).
-/

set_option autoImplicit false

namespace WhaleShark.Kernel

open Foundations HeapBlock

namespace Lies

variable {s : SmallMem} {a : BlockStore} {p : ℕ} {data : List (Option UInt8)}

/-! ## What is moved and filled -/

/-- The front of a new block is written. -/
theorem kept_front {m : ByteMemory} {k : ℕ} {front : List (Option UInt8)}
    (known : (HeapBlock.used front).Kept m p) :
    (HeapBlock.used (front ++ (List.replicate k none).drop front.length)).Kept m p := by
  intro i b there
  rw [List.getElem?_append] at there
  split at there
  · exact known i b there
  · rw [List.getElem?_drop, List.getElem?_replicate] at there
    split at there <;> cases there

/-- Where a block is, and how `rt_realloc` finds its size. -/
theorem place (lies : Lies s a) (has : a.dataAt p = some data) :
    ¬ s.heapEnd ≤ p ∧ sizeSub (sizeSub (s.next (p - 12)) (p - 12)) 12 = data.length := by
  obtain ⟨before, after, row, rfl, -⟩ := BlockStore.dataAt_eq_some has
  have words : WholeWords (.used data) := lies.sound.sizes _ (by rw [row]; simp)
  have segment := lies.segment
  have end_ := lies.end_
  have small := lies.in_bounds
  rw [row, segment_append, Nat.zero_add] at segment
  rw [row, extent_append, extent_cons, span_used] at end_
  rw [WholeWords, size_used] at words
  have whole : sizeSub (extent before + (12 + data.length)) (extent before) = 12 + data.length := by
    rw [sizeSub_of_le (by omega) (by omega)]
    omega
  rw [Nat.add_sub_cancel, SmallMem.next_eq segment.2.1, span_used, whole,
    sizeSub_of_le (by omega) (by omega)]
  omega

/-- `rt_realloc` cuts the block. -/
theorem cut (lies : Lies s a) (has : a.dataAt p = some data) {n : ℕ} (words : 4 ≤ n ∧ 4 ∣ n)
    (room : n + 24 < data.length) :
    Lies (s.cut (p - 12) data.length n) { a with blocks := coalesce (replaceAt p (fun _ =>
      [.used (data.take n), .free (data.length - n - 12)]) 0 a.blocks) } := by
  obtain ⟨before, after, row, rfl, replaced⟩ := BlockStore.dataAt_eq_some has
  have lfree := lies.lfree
  have usedMem := lies.usedMem
  rw [row] at lfree usedMem
  have whole : WholeWords (.used data) := lies.sound.sizes _ (by rw [row]; simp)
  have length : (data.take n).length = n := List.length_take_of_le (by omega)
  have sound := lies.sound.replace_coalesce row
    [.used (data.take n), .free (data.length - n - 12)]
    (by simp only [extent_cons, extent_nil, span_used, span_free, length]; omega) fun c member => by
      rw [WholeWords, size_used] at whole
      rcases List.mem_cons.mp member with rfl | rest
      · rw [WholeWords, size_used, length]
        exact words
      · obtain rfl := List.mem_singleton.mp rest
        rw [WholeWords, size_free]
        omega
  obtain ⟨m, segment, done⟩ := SmallMem.cut_eq (row ▸ lies.segment) (row ▸ lies.end_)
    (lies.heapEnd ▸ lies.small) room (row ▸ lies.sound.settled) lfree usedMem
  have alike := alike_coalesce
    (before ++ ([.used (data.take n), .free (data.length - n - 12)] ++ after))
  rw [replaced, Nat.add_sub_cancel, done]
  exact ⟨sound, lies.total, lies.small, segment, (alike.firstFree 0).symm, alike.usedBytes.symm,
    lies.maxMem⟩

/-- What a block holds is moved to a new one, and the block is given back. -/
theorem move {a' : BlockStore} {s' : SmallMem} (lies' : Lies s' a') (has : a.dataAt p = some data)
    {size : UInt32} {q n : ℕ} (taken : a.malloc size = (a', some q)) (fits : n ≤ needed size) :
    ∃ s'', SmallMem.rtFree { s' with mem := s'.mem.copy q p (min n data.length) } (some p) =
        (s'', false) ∧
      Lies s'' ((a'.setData q (data.take n ++
        ((a'.dataAt q).getD []).drop (min n data.length))).release p) := by
  obtain ⟨k, room, fresh, others⟩ := BlockStore.dataAt_malloc taken
  obtain ⟨apart, still⟩ := others p data has
  rw [fresh, Option.getD_some, ← List.length_take]
  have length : (data.take n ++ (List.replicate k none).drop (data.take n).length).length =
      (List.replicate k (none : Option UInt8)).length := by
    simp only [List.length_append, List.length_drop, List.length_replicate, List.length_take]
    omega
  have front : (HeapBlock.used (data.take n)).Kept
      (s'.mem.copy q p (data.take n).length) q := by
    intro i b known
    have inside := (List.getElem?_eq_some_iff.mp known).1
    rw [ByteMemory.copy, if_pos ⟨Nat.le_add_right q i, by omega⟩, Nat.add_sub_cancel_left]
    exact (lies'.kept still).front i b known
  have moved := lies'.setData fresh length (fun x outside => if_neg fun inside => by
    rw [List.length_replicate] at outside
    rw [List.length_take] at inside
    omega) (kept_front front)
  exact moved.release (BlockStore.dataAt_setData still apart fresh length)

/-! ## The other calls -/

/-- `rt_realloc` on a block: it stays, is cut, or moves. -/
theorem resize (lies : Lies s a) (has : a.dataAt p = some data) {newsize : UInt32}
    (fits : ¬ a.total < (rtAlign newsize).toNat) (some_ : (rtAlign newsize).toNat ≠ 0)
    {a' : BlockStore} {result : Option ℕ} (step : a.realloc (some p) newsize = some (a', result)) :
    ∃ s', s.rtRealloc (some p) newsize = some (s', result) ∧ Lies s' a' := by
  have fits' : ¬ s.memSizeAligned < (rtAlign newsize).toNat := lies.total ▸ fits
  obtain ⟨inside, size⟩ := lies.place has
  unfold BlockStore.realloc at step
  dsimp only at step
  rw [if_neg fits, if_neg some_] at step
  simp only [has] at step
  unfold SmallMem.rtRealloc
  dsimp only
  rw [if_neg fits', if_neg some_]
  simp only [if_neg inside, sizeofStructMem, size]
  by_cases same : data.length = (rtAlign newsize).toNat
  · rw [if_pos same] at step ⊢
    obtain ⟨rfl, rfl⟩ := Prod.mk.inj (Option.some.inj step)
    exact ⟨s, rfl, lies⟩
  rw [if_neg same] at step ⊢
  by_cases shorter : (rtAlign newsize).toNat + 24 < data.length
  · have shorter' : (rtAlign newsize).toNat + 12 + minSizeAligned < data.length := shorter
    have words : 4 ∣ (rtAlign newsize).toNat := by
      rw [toNat_rtAlign]
      exact Nat.dvd_mul_right 4 _
    rw [if_pos shorter] at step
    rw [if_pos shorter']
    obtain ⟨rfl, rfl⟩ := Prod.mk.inj (Option.some.inj step)
    exact ⟨_, rfl, lies.cut has ⟨by omega, words⟩ shorter⟩
  have shorter' : ¬ (rtAlign newsize).toNat + 12 + minSizeAligned < data.length := shorter
  obtain ⟨s', done, lies'⟩ := lies.malloc (rtAlign newsize)
  rw [if_neg shorter] at step
  rw [if_neg shorter', done]
  cases taken : a.malloc (rtAlign newsize) with
  | mk b answer =>
      rw [taken] at step lies'
      cases answer with
      | none =>
          obtain ⟨rfl, rfl⟩ := Prod.mk.inj (Option.some.inj step)
          exact ⟨s', rfl, lies'⟩
      | some q =>
          obtain ⟨rfl, rfl⟩ := Prod.mk.inj (Option.some.inj step)
          have room : (rtAlign newsize).toNat ≤ needed (rtAlign newsize) := by
            rw [needed, rtAlign_rtAlign]
            split <;> omega
          have least : (if data.length < (rtAlign newsize).toNat then data.length
              else (rtAlign newsize).toNat) = min (rtAlign newsize).toNat data.length := by
            split <;> omega
          obtain ⟨s'', moved, lies''⟩ := lies'.move has taken room
          refine ⟨s'', ?_, lies''⟩
          simp only [least, moved]

/-- **`rt_realloc`** keeps the front of what the block holds. -/
theorem realloc (lies : Lies s a) {rmem : Option ℕ} {newsize : UInt32} {a' : BlockStore}
    {result : Option ℕ} (step : a.realloc rmem newsize = some (a', result)) :
    ∃ s', s.rtRealloc rmem newsize = some (s', result) ∧ Lies s' a' := by
  have called := step
  unfold BlockStore.realloc at step
  dsimp only at step
  by_cases large : a.total < (rtAlign newsize).toNat
  · rw [if_pos large] at step
    obtain ⟨rfl, rfl⟩ := Prod.mk.inj (Option.some.inj step)
    exact ⟨s, if_pos (lies.total ▸ large), lies⟩
  have large' : ¬ s.memSizeAligned < (rtAlign newsize).toNat := lies.total ▸ large
  rw [if_neg large] at step
  by_cases zero : (rtAlign newsize).toNat = 0
  · unfold SmallMem.rtRealloc
    dsimp only
    rw [if_neg large', if_pos zero]
    rw [if_pos zero] at step
    obtain ⟨b, freed, same⟩ := Option.map_eq_some_iff.mp step
    obtain ⟨rfl, rfl⟩ := Prod.mk.inj same
    cases rmem with
    | none =>
        obtain rfl := Option.some.inj freed
        exact ⟨s, rfl, lies⟩
    | some p =>
        obtain ⟨data, has, rfl⟩ := Option.map_eq_some_iff.mp freed
        obtain ⟨s', done, lies'⟩ := lies.release has
        exact ⟨s', by rw [done], lies'⟩
  rw [if_neg zero] at step
  cases rmem with
  | none =>
      obtain ⟨s', done, lies'⟩ := lies.malloc (rtAlign newsize)
      have same : a.malloc (rtAlign newsize) = (a', result) := Option.some.inj step
      rw [same] at done lies'
      refine ⟨s', ?_, lies'⟩
      unfold SmallMem.rtRealloc
      dsimp only
      rw [if_neg large', if_neg zero]
      exact done
  | some p =>
      cases has : a.dataAt p with
      | none => simp [has] at step
      | some data => exact lies.resize has large zero called

/-- **`rt_calloc`** sets what it was asked for. -/
theorem calloc (lies : Lies s a) {count size : UInt32} {a' : BlockStore} {result : Option ℕ}
    (step : a.calloc count size = some (a', result)) :
    ∃ s', s.rtCalloc count size = some (s', result) ∧ Lies s' a' := by
  rw [BlockStore.calloc] at step
  obtain ⟨s', done, lies'⟩ := lies.malloc (count * size)
  rw [SmallMem.rtCalloc, done]
  cases taken : a.malloc (count * size) with
  | mk b answer =>
      rw [taken] at step lies'
      cases answer with
      | none =>
          obtain ⟨rfl, rfl⟩ := Prod.mk.inj (Option.some.inj step)
          exact ⟨s', rfl, lies'⟩
      | some q =>
          obtain ⟨k, -, fresh, -⟩ := BlockStore.dataAt_malloc taken
          simp only [fresh, Option.getD_some, List.length_replicate] at step
          split at step
          · rename_i within
            obtain ⟨rfl, rfl⟩ := Prod.mk.inj (Option.some.inj step)
            have known : (HeapBlock.used (List.replicate (count * size).toNat (some 0))).Kept
                (s'.mem.fill q (count * size).toNat 0) q := by
              intro i b there
              rw [List.getElem?_replicate] at there
              split at there
              · rename_i inside
                obtain rfl : 0 = b := by simpa using there
                exact if_pos ⟨Nat.le_add_right q i, by omega⟩
              · cases there
            have front := kept_front (k := k) known
            rw [List.length_replicate] at front
            refine ⟨_, rfl, lies'.setData fresh (by
              simp only [List.length_append, List.length_replicate, List.length_drop]
              omega) (fun x outside => ?_) front⟩
            rw [List.length_replicate] at outside
            exact if_neg fun inside => by omega
          · cases step

end Lies

/-! ## Step by step -/

/-- **The heap answers as the store does.** -/
theorem heap_answers {s : SmallMem} {a a' : BlockStore} {e : HeapEvent} {o : HeapOutput}
    (lies : Lies s a) (step : blockStore.step a e = some (a', o)) :
    ∃ s', smallMem.step s e = some (s', o) ∧ Lies s' a' := by
  cases e with
  | malloc size =>
      obtain ⟨rfl, rfl⟩ := Prod.mk.inj (Option.some.inj step)
      obtain ⟨s', done, lies'⟩ := lies.malloc size
      exact ⟨s', by simp only [smallMem, done, Option.map_some], lies'⟩
  | calloc count size =>
      obtain ⟨⟨b, answer⟩, called, same⟩ := Option.map_eq_some_iff.mp step
      obtain ⟨rfl, rfl⟩ := Prod.mk.inj same
      obtain ⟨s', done, lies'⟩ := lies.calloc called
      exact ⟨s', by simp only [smallMem, done, Option.map_some], lies'⟩
  | realloc rmem newsize =>
      obtain ⟨⟨b, answer⟩, called, same⟩ := Option.map_eq_some_iff.mp step
      obtain ⟨rfl, rfl⟩ := Prod.mk.inj same
      obtain ⟨s', done, lies'⟩ := lies.realloc called
      exact ⟨s', by simp only [smallMem, done, Option.map_some], lies'⟩
  | free rmem =>
      obtain ⟨b, freed, same⟩ := Option.map_eq_some_iff.mp step
      obtain ⟨rfl, rfl⟩ := Prod.mk.inj same
      cases rmem with
      | none =>
          obtain rfl := Option.some.inj freed
          exact ⟨s, rfl, lies⟩
      | some p =>
          obtain ⟨data, has, rfl⟩ := Option.map_eq_some_iff.mp freed
          obtain ⟨s', done, lies'⟩ := lies.release has
          exact ⟨s', by simp only [smallMem, done], lies'⟩
  | store p i b =>
      simp only [blockStore] at step
      cases has : a.dataAt p with
      | none => simp [has] at step
      | some data =>
          simp only [has] at step
          split at step
          · rename_i inside
            obtain ⟨rfl, rfl⟩ := Prod.mk.inj (Option.some.inj step)
            refine ⟨_, rfl, lies.setData has (List.length_set ..) (fun x outside => ?_) ?_⟩
            · exact Function.update_of_ne (by omega) ..
            · intro j c known
              rw [List.getElem?_set] at known
              split at known
              · rename_i here
                obtain rfl : b = c := by simpa [inside] using known
                rw [← here, Function.update_self]
              · rename_i other
                rw [Function.update_of_ne (by omega)]
                exact lies.kept has j c known
          · cases step
  | load p i =>
      simp only [blockStore] at step
      split at step
      · rename_i b known
        obtain ⟨rfl, rfl⟩ := Prod.mk.inj (Option.some.inj step)
        obtain ⟨data, has, there⟩ := Option.bind_eq_some_iff.mp known
        exact ⟨s, by simp only [smallMem, lies.kept has i b there], lies⟩
      · cases step
  | info =>
      obtain ⟨rfl, rfl⟩ := Prod.mk.inj (Option.some.inj step)
      exact ⟨s, by simp only [smallMem, lies.total, lies.usedMem, lies.maxMem], lies⟩

/-! ## The begin -/

/-- The sizes of `rt_system_heap_init`, without wrapping. -/
theorem toNat_heapSize {b e : UInt32} (fits : 2 * 12 < e ∧ b ≤ e - 2 * 12) :
    (e - b - 2 * 12).toNat + 24 + b.toNat = e.toNat := by
  have two : (2 * 12 : UInt32).toNat = 24 := rfl
  obtain ⟨high, low⟩ := fits
  have high' := UInt32.lt_iff_toNat_lt.mp high
  have rest : (e - 2 * 12).toNat = e.toNat - 24 :=
    UInt32.toNat_sub_of_le _ _ (UInt32.le_of_lt high)
  have low' := UInt32.le_iff_toNat_le.mp low
  rw [two] at high'
  rw [rest] at low'
  have first : (e - b).toNat = e.toNat - b.toNat :=
    UInt32.toNat_sub_of_le _ _ (UInt32.le_iff_toNat_le.mpr (by omega))
  have second : (e - b - 2 * 12).toNat = (e - b).toNat - 24 :=
    UInt32.toNat_sub_of_le _ _ (UInt32.le_iff_toNat_le.mpr (by rw [two, first]; omega))
  rw [second, first]
  omega

/-- The two headers that are set up. -/
theorem segment_init (memory : ByteMemory) {total : ℕ} (small : total + 24 ≤ 0x100000000) :
    Segment ((((((((memory.writeLe 0 2 heapMagic).writeLe 4 4 (total + 12)).writeLe 8 4 0).writeLe
      2 2 0).writeLe (total + 12) 2 heapMagic).writeLe (total + 12 + 2) 2 1).writeLe
      (total + 12 + 4) 4 (total + 12)).writeLe (total + 12 + 8) 4 (total + 12)) 0 0
      [.free total] := by
  refine ⟨⟨?_, ?_, ?_, ?_, trivial⟩, trivial⟩
  · simp (disch := omega) only [ByteMemory.readLe_writeLe_of_disjoint]
    exact ByteMemory.readLe_writeLe (by decide)
  · simp (disch := omega) only [ByteMemory.readLe_writeLe_of_disjoint]
    exact ByteMemory.readLe_writeLe (by decide)
  · simp (disch := omega) only [ByteMemory.readLe_writeLe_of_disjoint]
    rw [ByteMemory.readLe_writeLe (by omega), span_free]
    omega
  · simp (disch := omega) only [ByteMemory.readLe_writeLe_of_disjoint]
    exact ByteMemory.readLe_writeLe (by decide)

theorem lies_init {memory : ByteMemory} {beginAddr endAddr : UInt32} {s : SmallMem}
    (init : SmallMem.rtSystemHeapInit memory beginAddr endAddr = some s)
    (large : 12 ≤ s.memSizeAligned) : Lies s (.new s.memSizeAligned) := by
  rw [SmallMem.rtSystemHeapInit] at init
  split at init
  · rename_i fits
    have size := toNat_heapSize fits
    have low := toNat_rtAlign beginAddr
    have high := toNat_rtAlignDown endAddr
    have bound := endAddr.toNat_lt
    generalize (rtAlignDown endAddr - rtAlign beginAddr - 2 * 12).toNat = total at init size
    obtain rfl := Option.some.inj init
    have small : total + 24 ≤ 0x100000000 := by omega
    refine ⟨⟨?_, .singleton _, ?_, large⟩, rfl, small, segment_init memory small, rfl, rfl, rfl⟩
    · exact Nat.add_comm 12 total
    · intro b member
      obtain rfl := List.mem_singleton.mp member
      change 4 ≤ total ∧ 4 ∣ total
      change 12 ≤ total at large
      omega
  · cases init

/-! ## Two blocks of a row -/

theorem dvd_extent {row : List HeapBlock} (sizes : ∀ b ∈ row, WholeWords b) : 4 ∣ extent row := by
  induction row with
  | nil => exact Nat.dvd_zero 4
  | cons b row ih =>
      have first := (sizes b List.mem_cons_self).2
      have rest := ih fun c member => sizes c (List.mem_cons_of_mem b member)
      rw [extent_cons, span_eq]
      omega

/-- One of them lies in front of the other. -/
theorem apart_of_ne {row before after before' after' : List HeapBlock} {b c : HeapBlock}
    (one : row = before ++ b :: after) (two : row = before' ++ c :: after') (other : b ≠ c) :
    extent before + b.span ≤ extent before' ∨ extent before' + c.span ≤ extent before := by
  rcases List.append_eq_append_iff.mp (one.symm.trans two) with
    ⟨more, rfl, rest⟩ | ⟨more, rfl, rest⟩
  · cases more with
    | nil => exact absurd (List.cons.inj rest).1 other
    | cons d more =>
        obtain ⟨rfl, -⟩ := List.cons.inj rest
        refine .inl ?_
        rw [extent_append, extent_cons]
        omega
  · cases more with
    | nil => exact absurd (List.cons.inj rest).1.symm other
    | cons d more =>
        obtain ⟨rfl, -⟩ := List.cons.inj rest
        refine .inr ?_
        rw [extent_append, extent_cons]
        omega

/-- Nothing is in use exactly if all is one free block. -/
theorem usedBytes_eq_zero_iff {a : BlockStore} (sound : a.Sound) :
    usedBytes a.blocks = 0 ↔ a.blocks = [.free a.total] := by
  constructor
  · intro none_
    have extent_ := sound.extent
    have settled := sound.settled
    revert none_ extent_ settled
    generalize a.blocks = row
    intro none_ extent_ settled
    cases row with
    | nil => simp at extent_
    | cons b rest =>
        cases b with
        | used data =>
            rw [usedBytes, sizeofStructMem] at none_
            omega
        | free n =>
            cases rest with
            | nil =>
                rw [extent_cons, extent_nil, span_free] at extent_
                rw [show n = a.total by omega]
            | cons c rest =>
                cases c with
                | used data =>
                    rw [usedBytes, usedBytes, sizeofStructMem] at none_
                    omega
                | free k => exact absurd ⟨rfl, rfl⟩ (List.isChain_cons_cons.mp settled).1
  · intro whole
    rw [whole]
    rfl

/-! ## Whole runs -/

theorem heap_of_100 : ∃ s, SmallMem.rtSystemHeapInit (fun _ => 0) 0 124 = some s ∧
    s.memSizeAligned = 100 := by
  have fits : 2 * 12 < rtAlignDown 124 ∧ rtAlign 0 ≤ rtAlignDown 124 - 2 * 12 := by decide
  have size : (rtAlignDown 124 - rtAlign 0 - 2 * 12).toNat = 100 := by decide
  exact ⟨_, if_pos (e := none) fits, size⟩

section Runs

variable {memory : ByteMemory} {beginAddr endAddr : UInt32} {s : SmallMem}
  {taken : List (Transition BlockStore HeapEvent HeapOutput)} {last : BlockStore}

/-- **The heap does what a store of blocks does.** Whatever the threads do with blocks that they
have, the heap answers alike, and at every point the blocks lie in its memory with what was written
to them. -/
theorem heap_runs_are_block_runs
    (init : SmallMem.rtSystemHeapInit memory beginAddr endAddr = some s)
    (large : 12 ≤ s.memSizeAligned) (run : blockStore.Run (.new s.memSizeAligned) taken last) :
    ∃ taken' last', smallMem.Run s taken' last' ∧
      List.Forall₂ (Machine.Matches fun a s => Lies s a) taken taken' ∧ Lies last' last :=
  run.answered (lies_init init large) fun _ _ takes _ lies => heap_answers lies takes

/-- A heap of 100 bytes: two blocks are taken, the first one grows and so is moved, and what was
written is read at its new place. Then all is given back. -/
theorem heap_runs_are_block_runs_moved : ∃ s taken last taken' last',
    SmallMem.rtSystemHeapInit (fun _ => 0) 0 124 = some s ∧
    blockStore.Run (.new s.memSizeAligned) taken last ∧ smallMem.Run s taken' last' ∧
    List.Forall₂ (Machine.Matches fun a s => Lies s a) taken taken' ∧
    taken.map (·.output) = [.pointer (some 12), .stored, .pointer (some 36), .pointer (some 60),
      .byte 7, .freed false, .freed false, .info 100 0 84] := by
  obtain ⟨s, init, total⟩ := heap_of_100
  obtain ⟨taken, last, run, passed⟩ := Machine.exists_run_of_passes blockStore (.new 100)
    [.malloc 10, .store 12 3 7, .malloc 11, .realloc (some 12) 21, .load 60 3, .free (some 36),
      .free (some 60), .info]
    (fun taken _ => decide (taken.map (·.output) = [.pointer (some 12), .stored,
      .pointer (some 36), .pointer (some 60), .byte 7, .freed false, .freed false,
      .info 100 0 84])) (by decide +kernel)
  rw [← total] at run
  obtain ⟨taken', last', run', alike, -⟩ :=
    heap_runs_are_block_runs init (by rw [total]; decide) run
  exact ⟨s, taken, last, taken', last', init, run, run', alike, of_decide_eq_true passed⟩

/-- **A block that `rt_malloc` returns is the caller's own**: it is aligned, it lies within the
heap, and apart from every other block that a thread has, with a header between them. -/
theorem malloc_returns_own_block
    (init : SmallMem.rtSystemHeapInit memory beginAddr endAddr = some s)
    (large : 12 ≤ s.memSizeAligned) (run : blockStore.Run (.new s.memSizeAligned) taken last) :
    ∃ taken' last', smallMem.Run s taken' last' ∧
      List.Forall₂ (Machine.Matches fun a s => Lies s a) taken taken' ∧ Lies last' last ∧
      ∀ size s' p, last'.rtMalloc size = some (s', some p) → size.toNat ≤ 0xfffffffc →
        4 ∣ p ∧ p + size.toNat ≤ last'.heapEnd ∧ ∀ q data, last.dataAt q = some data →
          p + size.toNat + 12 ≤ q ∨ q + data.length + 12 ≤ p := by
  obtain ⟨taken', last', run', alike, lies⟩ := heap_runs_are_block_runs init large run
  refine ⟨taken', last', run', alike, lies, fun size s' p returned short => ?_⟩
  obtain ⟨s₁, done, -⟩ := lies.malloc size
  have same : (last.malloc size).2 = some p := by
    rw [done] at returned
    exact (Prod.mk.inj (Option.some.inj returned)).2
  have long : size.toNat ≤ needed size := by
    have words := toNat_rtAlign size
    rw [needed, minSizeAligned]
    split <;> omega
  rcases last.malloc_cases size with refused | ⟨before, n, after, row, room, taken, -⟩
  · rw [refused] at same
    cases same
  · rw [taken] at same
    obtain rfl : extent before + 12 = p := Option.some.inj same
    have sizes := lies.sound.sizes
    have end_ := lies.end_
    rw [row] at sizes end_
    rw [extent_append, extent_cons, span_free] at end_
    have words : 4 ∣ extent before :=
      dvd_extent fun b member => sizes b (List.mem_append_left _ member)
    refine ⟨by omega, by omega, fun q data has => ?_⟩
    obtain ⟨before', after', row', rfl, -⟩ := BlockStore.dataAt_eq_some has
    rcases apart_of_ne row row' HeapBlock.noConfusion with behind | front
    · rw [span_free] at behind
      omega
    · rw [span_used] at front
      omega

/-- The second block of a heap of 100 bytes -/
theorem malloc_returns_own_block_second : ∃ (s s' last' : SmallMem) (p : ℕ),
    SmallMem.rtSystemHeapInit (fun _ => 0) 0 124 = some s ∧
    last'.rtMalloc 5 = some (s', some p) ∧ 4 ∣ p ∧ p + 5 ≤ last'.heapEnd ∧
    (p + 5 + 12 ≤ 12 ∨ 12 + 12 + 12 ≤ p) := by
  obtain ⟨s, init, total⟩ := heap_of_100
  obtain ⟨taken, last, run, passed⟩ := Machine.exists_run_of_passes blockStore (.new 100)
    [.malloc 10]
    (fun _ last => decide (last.dataAt 12 = some (List.replicate 12 none) ∧
      (last.malloc 5).2 = some 36)) (by decide +kernel)
  obtain ⟨has, second⟩ := of_decide_eq_true passed
  rw [← total] at run
  obtain ⟨taken', last', run', alike, lies, own⟩ :=
    malloc_returns_own_block init (by rw [total]; decide) run
  obtain ⟨s', done, -⟩ := lies.malloc 5
  rw [second] at done
  obtain ⟨words, inside, apart⟩ := own 5 s' 36 done (by decide)
  have others := apart 12 _ has
  rw [List.length_replicate] at others
  exact ⟨s, s', last', 36, init, done, words, inside, others⟩

end Runs

end WhaleShark.Kernel

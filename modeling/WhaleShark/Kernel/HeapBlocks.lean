import Mathlib.Data.List.Chain
import WhaleShark.Kernel.SmallMem

/-!
# A store of blocks

What the heap is for is a row of blocks that fill it, each of them free or with the bytes that the
thread has written which has it (`blockStore`). A block is named by its address, which is that of
its first byte. A thread is to use only blocks that it has, within their size, and to read only what
it has written.

There are never two free blocks side by side, as free neighbours are joined (`coalesce`).
-/

set_option autoImplicit false

namespace WhaleShark.Kernel

open Foundations

/-- A free block of a size, or one that a thread has. -/
inductive HeapBlock where
  | free (size : ℕ)
  | used (data : List (Option UInt8))
  deriving DecidableEq

namespace HeapBlock

/-- The number of bytes -/
def size : HeapBlock → ℕ
  | .free size => size
  | .used data => data.length

/-- With the header -/
def span (b : HeapBlock) : ℕ := sizeofStructMem + b.size

def isFree : HeapBlock → Bool
  | .free _ => true
  | .used _ => false

@[simp] theorem size_free (n : ℕ) : (free n).size = n := rfl

@[simp] theorem size_used (data : List (Option UInt8)) : (used data).size = data.length := rfl

@[simp] theorem span_free (n : ℕ) : (free n).span = 12 + n := rfl

@[simp] theorem span_used (data : List (Option UInt8)) : (used data).span = 12 + data.length := rfl

theorem span_eq (b : HeapBlock) : b.span = 12 + b.size := rfl

end HeapBlock

open HeapBlock

/-- The length of a row of blocks. -/
def extent : List HeapBlock → ℕ
  | [] => 0
  | b :: rest => b.span + extent rest

@[simp] theorem extent_nil : extent [] = 0 := rfl

@[simp] theorem extent_cons (b : HeapBlock) (rest : List HeapBlock) :
    extent (b :: rest) = b.span + extent rest := rfl

@[simp] theorem extent_append (row more : List HeapBlock) :
    extent (row ++ more) = extent row + extent more := by
  induction row with
  | nil => simp
  | cons b row ih => rw [List.cons_append, extent_cons, extent_cons, ih, Nat.add_assoc]

/-- The bytes in use, with the headers. -/
def usedBytes : List HeapBlock → ℕ
  | [] => 0
  | .free _ :: rest => usedBytes rest
  | .used data :: rest => sizeofStructMem + data.length + usedBytes rest

theorem usedBytes_append (row more : List HeapBlock) :
    usedBytes (row ++ more) = usedBytes row + usedBytes more := by
  induction row with
  | nil => simp [usedBytes]
  | cons b row ih => cases b <;> simp [usedBytes, ih, Nat.add_assoc]

/-! ## Finding a block -/

/-- The block at an address, in a row that begins at `at_`. -/
def blockAt (p : ℕ) : ℕ → List HeapBlock → Option HeapBlock
  | _, [] => none
  | at_, b :: rest => if at_ + sizeofStructMem = p then some b else blockAt p (at_ + b.span) rest

/-- The block at an address is replaced by others. -/
def replaceAt (p : ℕ) (f : HeapBlock → List HeapBlock) : ℕ → List HeapBlock → List HeapBlock
  | _, [] => []
  | at_, b :: rest =>
      if at_ + sizeofStructMem = p then f b ++ rest else b :: replaceAt p f (at_ + b.span) rest

/-- The first free block that is large enough. At the end of the heap there is to be room for one
byte more. -/
def locate (total size : ℕ) : ℕ → List HeapBlock → Option ℕ
  | _, [] => none
  | at_, b :: rest =>
      if b.isFree = true ∧ size ≤ b.size ∧ at_ + size < total then some (at_ + sizeofStructMem)
      else locate total size (at_ + b.span) rest

/-- The header of the first free block, or the end. -/
def firstFree : ℕ → List HeapBlock → ℕ
  | at_, [] => at_
  | at_, .free _ :: _ => at_
  | at_, .used data :: rest => firstFree (at_ + (sizeofStructMem + data.length)) rest

/-- The place of a block in the row, and what replacing it does. -/
theorem blockAt_eq_some {p at_ : ℕ} {row : List HeapBlock} {b : HeapBlock}
    (found : blockAt p at_ row = some b) :
    ∃ before after, row = before ++ b :: after ∧ p = at_ + extent before + sizeofStructMem ∧
      ∀ f, replaceAt p f at_ row = before ++ (f b ++ after) := by
  induction row generalizing at_ with
  | nil => cases found
  | cons c rest ih =>
      rw [blockAt] at found
      split at found
      · rename_i here
        obtain rfl := Option.some.inj found
        exact ⟨[], rest, rfl, here.symm, fun f => by rw [replaceAt, if_pos here]; rfl⟩
      · rename_i other
        obtain ⟨before, after, rfl, place, replaced⟩ := ih found
        refine ⟨c :: before, after, rfl, by rw [extent_cons, place, Nat.add_assoc at_], fun f => ?_⟩
        rw [replaceAt, if_neg other, replaced]
        rfl

/-- A block that is found stands behind the begin. -/
theorem le_of_blockAt {p at_ : ℕ} {row : List HeapBlock} {b : HeapBlock}
    (found : blockAt p at_ row = some b) : at_ + 12 ≤ p := by
  obtain ⟨before, after, -, place, -⟩ := blockAt_eq_some found
  rw [place, sizeofStructMem]
  omega

/-- Blocks in front are passed over. -/
theorem blockAt_append {p at_ : ℕ} {row more : List HeapBlock}
    (behind : at_ + extent row + 12 ≤ p) :
    blockAt p at_ (row ++ more) = blockAt p (at_ + extent row) more := by
  induction row generalizing at_ with
  | nil => rfl
  | cons b row ih =>
      rw [extent_cons] at behind ⊢
      have other : at_ + sizeofStructMem ≠ p := by
        rw [span_eq] at behind
        rw [sizeofStructMem]
        omega
      rw [List.cons_append, blockAt, if_neg other, ih (by omega), Nat.add_assoc at_]

theorem blockAt_self {at_ : ℕ} {before after : List HeapBlock} {b : HeapBlock} :
    blockAt (at_ + extent before + 12) at_ (before ++ b :: after) = some b := by
  rw [blockAt_append (Nat.le_refl _), blockAt]
  exact if_pos rfl

/-- Replacing a block by others of the same length leaves every other block. -/
theorem blockAt_replaceAt {p q at_ : ℕ} {row : List HeapBlock} {b c : HeapBlock}
    {f : HeapBlock → List HeapBlock} (found : blockAt p at_ row = some c) (other : p ≠ q)
    (there : blockAt q at_ row = some b) (same : extent (f b) = b.span) :
    blockAt p at_ (replaceAt q f at_ row) = some c := by
  induction row generalizing at_ with
  | nil => cases found
  | cons d rest ih =>
      rw [blockAt] at found there
      by_cases first : at_ + sizeofStructMem = q
      · obtain rfl := Option.some.inj ((if_pos first).symm.trans there)
        rw [if_neg fun here => other (here.symm.trans first)] at found
        have behind := le_of_blockAt found
        rw [replaceAt, if_pos first, blockAt_append (by rw [same]; exact behind), same]
        exact found
      · rw [if_neg first] at there
        rw [replaceAt, if_neg first, blockAt]
        by_cases here : at_ + sizeofStructMem = p
        · rw [if_pos here] at found ⊢
          exact found
        · rw [if_neg here] at found ⊢
          exact ih found there

/-- The block that is found is free and large enough. -/
theorem locate_eq_some {total size p at_ : ℕ} {row : List HeapBlock}
    (found : locate total size at_ row = some p) :
    ∃ n, blockAt p at_ row = some (.free n) ∧ size ≤ n ∧ p + size < total + sizeofStructMem := by
  induction row generalizing at_ with
  | nil => cases found
  | cons b rest ih =>
      rw [locate] at found
      split at found
      · rename_i fits
        obtain ⟨isFree, large, room⟩ := fits
        obtain rfl := Option.some.inj found
        cases b with
        | free n =>
            refine ⟨n, by rw [blockAt, if_pos rfl], large, ?_⟩
            rw [sizeofStructMem]
            omega
        | used data => cases isFree
      · obtain ⟨n, there, large, room⟩ := ih found
        refine ⟨n, ?_, large, room⟩
        have behind : at_ + sizeofStructMem ≠ p := by
          obtain ⟨before, after, -, place, -⟩ := blockAt_eq_some there
          rw [place, span_eq, sizeofStructMem]
          omega
        rw [blockAt, if_neg behind]
        exact there

/-! ## Free neighbours -/

/-- A free block takes a free one behind it, with its header. -/
def glue : HeapBlock → List HeapBlock → List HeapBlock
  | .free n, .free k :: rest => .free (n + sizeofStructMem + k) :: rest
  | b, rest => b :: rest

/-- All free neighbours are joined. -/
def coalesce : List HeapBlock → List HeapBlock
  | [] => []
  | b :: rest => glue b (coalesce rest)

/-- No two neighbours are free. -/
abbrev Settled (row : List HeapBlock) : Prop :=
  row.IsChain fun b c => ¬ (b.isFree = true ∧ c.isFree = true)

theorem glue_used (data : List (Option UInt8)) (rest : List HeapBlock) :
    glue (.used data) rest = .used data :: rest := rfl

theorem glue_free_free (n k : ℕ) (rest : List HeapBlock) :
    glue (.free n) (.free k :: rest) = .free (n + 12 + k) :: rest := rfl

/-- What is behind a block decides whether it is joined. -/
theorem glue_of_settled {b : HeapBlock} {rest : List HeapBlock} (settled : Settled (b :: rest)) :
    glue b rest = b :: rest := by
  cases b with
  | used data => rfl
  | free n =>
      cases rest with
      | nil => rfl
      | cons c rest =>
          cases c with
          | used data => rfl
          | free k => exact absurd ⟨rfl, rfl⟩ (List.isChain_cons_cons.mp settled).1

theorem settled_glue {b : HeapBlock} {rest : List HeapBlock} (settled : Settled rest) :
    Settled (glue b rest) := by
  cases b with
  | used data =>
      rw [glue_used]
      cases rest with
      | nil => exact .singleton _
      | cons c rest => exact .cons_cons (by simp [isFree]) settled
  | free n =>
      cases rest with
      | nil => exact .singleton _
      | cons c rest =>
          cases c with
          | used data => exact .cons_cons (by simp [isFree]) settled
          | free k =>
              rw [glue_free_free]
              cases rest with
              | nil => exact .singleton _
              | cons d rest =>
                  obtain ⟨apart, settled'⟩ := List.isChain_cons_cons.mp settled
                  exact .cons_cons apart settled'

theorem settled_coalesce (row : List HeapBlock) : Settled (coalesce row) := by
  induction row with
  | nil => exact .nil
  | cons b row ih => exact settled_glue ih

theorem coalesce_of_settled {row : List HeapBlock} (settled : Settled row) :
    coalesce row = row := by
  induction row with
  | nil => rfl
  | cons b row ih => rw [coalesce, ih settled.tail, glue_of_settled settled]

/-- Blocks in front that are settled stay. -/
theorem coalesce_append {before row : List HeapBlock} (settled : Settled (before ++ coalesce row)) :
    coalesce (before ++ row) = before ++ coalesce row := by
  induction before with
  | nil => rfl
  | cons b before ih =>
      rw [List.cons_append] at settled ⊢
      rw [coalesce, ih settled.tail, glue_of_settled settled, List.cons_append]

/-- What a row has that joining keeps: its length, the bytes in use, the place of the first free
block, and that all sizes are whole words. -/
structure Alike (row row' : List HeapBlock) : Prop where
  extent : extent row' = extent row
  usedBytes : usedBytes row' = usedBytes row
  firstFree : ∀ at_, firstFree at_ row' = firstFree at_ row

theorem alike_glue (b : HeapBlock) (rest : List HeapBlock) : Alike (b :: rest) (glue b rest) := by
  cases b with
  | used data => exact ⟨rfl, rfl, fun _ => rfl⟩
  | free n =>
      cases rest with
      | nil => exact ⟨rfl, rfl, fun _ => rfl⟩
      | cons c rest =>
          cases c with
          | used data => exact ⟨rfl, rfl, fun _ => rfl⟩
          | free k =>
              refine ⟨?_, rfl, fun _ => rfl⟩
              rw [glue_free_free]
              simp only [extent_cons, span_free]
              omega

theorem alike_coalesce (row : List HeapBlock) : Alike row (coalesce row) := by
  induction row with
  | nil => exact ⟨rfl, rfl, fun _ => rfl⟩
  | cons b row ih =>
      have front := alike_glue b (coalesce row)
      refine ⟨?_, ?_, fun at_ => ?_⟩
      · rw [coalesce, front.extent, extent_cons, extent_cons, ih.extent]
      · rw [coalesce, front.usedBytes]
        cases b <;> simp only [Kernel.usedBytes, ih.usedBytes]
      · rw [coalesce, front.firstFree]
        cases b with
        | free n => rfl
        | used data => exact ih.firstFree _

/-- Whole words, and not none. -/
abbrev WholeWords (b : HeapBlock) : Prop := 4 ≤ b.size ∧ 4 ∣ b.size

theorem wholeWords_coalesce {row : List HeapBlock} (sizes : ∀ b ∈ row, WholeWords b) :
    ∀ b ∈ coalesce row, WholeWords b := by
  induction row with
  | nil => exact sizes
  | cons b row ih =>
      have front := sizes b List.mem_cons_self
      have behind := ih fun c member => sizes c (List.mem_cons_of_mem b member)
      rw [coalesce]
      generalize coalesce row = rest at behind
      cases b with
      | used data =>
          intro c member
          rcases List.mem_cons.mp member with rfl | old
          · exact front
          · exact behind c old
      | free n =>
          cases rest with
          | nil => simpa [glue] using front
          | cons d rest =>
              have next := behind d List.mem_cons_self
              intro c member
              cases d with
              | used data =>
                  rcases List.mem_cons.mp member with rfl | old
                  · exact front
                  · exact behind c old
              | free k =>
                  rcases List.mem_cons.mp member with rfl | old
                  · simp only [WholeWords, size_free, sizeofStructMem] at front next ⊢
                    omega
                  · exact behind c (List.mem_cons_of_mem _ old)

/-- A used block has no part in it. -/
theorem settled_used_iff {before after : List HeapBlock} {data : List (Option UInt8)} :
    Settled (before ++ .used data :: after) ↔ Settled before ∧ Settled after := by
  rw [Settled, List.isChain_append]
  constructor
  · rintro ⟨front, behind, -⟩
    exact ⟨front, behind.tail⟩
  · rintro ⟨front, behind⟩
    refine ⟨front, ?_, fun x _ y head => ?_⟩
    · cases after with
      | nil => exact .singleton _
      | cons c after => exact .cons_cons (by simp [isFree]) behind
    · obtain rfl : .used data = y := by simpa using head
      simp [isFree]

/-! ## The store -/

/-- The size of the heap, the blocks, and how much was in use at most. -/
structure BlockStore where
  total : ℕ
  blocks : List HeapBlock
  maxUsed : ℕ

/-- The number of bytes that `rt_malloc` looks for. -/
def needed (size : UInt32) : ℕ :=
  if (rtAlign size).toNat < minSizeAligned then minSizeAligned else (rtAlign size).toNat

/-- The part of a free block that is taken, and what it leaves, if that is large enough for a block.
-/
def carve (size : ℕ) (b : HeapBlock) : List HeapBlock :=
  if size + 24 ≤ b.size then [.used (List.replicate size none), .free (b.size - size - 12)]
  else [.used (List.replicate b.size none)]

namespace BlockStore

variable (a : BlockStore)

/-- What is known of the bytes of a block that a thread has. -/
def dataAt (p : ℕ) : Option (List (Option UInt8)) :=
  match blockAt p 0 a.blocks with
  | some (.used data) => some data
  | _ => none

def setData (p : ℕ) (data : List (Option UInt8)) : BlockStore :=
  { a with blocks := replaceAt p (fun _ => [.used data]) 0 a.blocks }

def malloc (size : UInt32) : BlockStore × Option ℕ :=
  if size = 0 ∨ a.total < (rtAlign size).toNat then (a, none)
  else
    match locate a.total (needed size) 0 a.blocks with
    | none => (a, none)
    | some p =>
        let blocks := replaceAt p (carve (needed size)) 0 a.blocks
        (⟨a.total, blocks, max a.maxUsed (usedBytes blocks)⟩, some p)

/-- The block at `p` becomes free. -/
def release (p : ℕ) : BlockStore :=
  { a with blocks := coalesce (replaceAt p (fun b => [.free b.size]) 0 a.blocks) }

def free : Option ℕ → Option BlockStore
  | none => some a
  | some p => (a.dataAt p).map fun _ => a.release p

def realloc (rmem : Option ℕ) (newsize : UInt32) : Option (BlockStore × Option ℕ) :=
  let n := (rtAlign newsize).toNat
  if a.total < n then some (a, none)
  else if n = 0 then (a.free rmem).map fun a => (a, none)
  else
    match rmem with
    | none => some (a.malloc (rtAlign newsize))
    | some p =>
        match a.dataAt p with
        | none => none
        | some data =>
            if data.length = n then some (a, some p)
            else if n + 24 < data.length then
              let cut (_ : HeapBlock) : List HeapBlock :=
                [.used (data.take n), .free (data.length - n - 12)]
              some ({ a with blocks := coalesce (replaceAt p cut 0 a.blocks) }, some p)
            else
              match a.malloc (rtAlign newsize) with
              | (a, none) => some (a, none)
              | (a, some q) =>
                  let room := (a.dataAt q).getD []
                  let moved := data.take n ++ room.drop (min n data.length)
                  some ((a.setData q moved).release p, some q)

/-- The bytes that are set are to lie in the block. -/
def calloc (count size : UInt32) : Option (BlockStore × Option ℕ) :=
  let n := (count * size).toNat
  match a.malloc (count * size) with
  | (a, none) => some (a, none)
  | (a, some q) =>
      let room := (a.dataAt q).getD []
      if n ≤ room.length then
        some (a.setData q (List.replicate n (some 0) ++ room.drop n), some q)
      else none

end BlockStore

/-- The threads use the blocks that they have. -/
def blockStore : Machine BlockStore HeapEvent HeapOutput where
  step a
    | .malloc size => some ((a.malloc size).1, .pointer (a.malloc size).2)
    | .calloc count size => (a.calloc count size).map fun (a, rmem) => (a, .pointer rmem)
    | .realloc rmem newsize => (a.realloc rmem newsize).map fun (a, rmem) => (a, .pointer rmem)
    | .free rmem => (a.free rmem).map fun a => (a, .freed false)
    | .store p i b =>
        match a.dataAt p with
        | none => none
        | some data =>
            if i < data.length then some (a.setData p (data.set i (some b)), .stored) else none
    | .load p i =>
        match (a.dataAt p).bind (·[i]?) with
        | some (some b) => some (a, .byte b)
        | _ => none
    | .info => some (a, .info a.total (usedBytes a.blocks) a.maxUsed)

/-- One free block -/
def BlockStore.new (total : ℕ) : BlockStore := ⟨total, [.free total], 0⟩

/-- What holds of every store: the blocks fill the heap, all sizes are whole words, and no two
neighbours are free. -/
structure BlockStore.Sound (a : BlockStore) : Prop where
  extent : extent a.blocks = a.total + 12
  settled : Settled a.blocks
  sizes : ∀ b ∈ a.blocks, WholeWords b
  large : 12 ≤ a.total

namespace BlockStore

variable {a : BlockStore}

/-- The place of a block that a thread has. -/
theorem dataAt_eq_some {p : ℕ} {data : List (Option UInt8)} (has : a.dataAt p = some data) :
    ∃ before after, a.blocks = before ++ .used data :: after ∧ p = extent before + 12 ∧
      ∀ f, replaceAt p f 0 a.blocks = before ++ (f (.used data) ++ after) := by
  unfold dataAt at has
  split at has
  · rename_i data' found
    obtain rfl := Option.some.inj has
    obtain ⟨before, after, row, place, replaced⟩ := blockAt_eq_some found
    exact ⟨before, after, row, by rw [place, sizeofStructMem]; omega, replaced⟩
  · cases has

/-- **What `malloc` does**: nothing, or it takes the front of a free block. -/
theorem malloc_cases (a : BlockStore) (size : UInt32) :
    a.malloc size = (a, none) ∨
      ∃ before n after, a.blocks = before ++ .free n :: after ∧ needed size ≤ n ∧
        a.malloc size = (⟨a.total, before ++ (carve (needed size) (.free n) ++ after),
          max a.maxUsed (usedBytes (before ++ (carve (needed size) (.free n) ++ after)))⟩,
          some (extent before + 12)) ∧
        locate a.total (needed size) 0 a.blocks = some (extent before + 12) := by
  unfold malloc
  by_cases refused : size = 0 ∨ a.total < (rtAlign size).toNat
  · exact .inl (if_pos refused)
  · rw [if_neg refused]
    cases found : locate a.total (needed size) 0 a.blocks with
    | none => exact .inl rfl
    | some p =>
        obtain ⟨n, there, large, -⟩ := locate_eq_some found
        obtain ⟨before, after, row, place, replaced⟩ := blockAt_eq_some there
        rw [Nat.zero_add, sizeofStructMem] at place
        refine .inr ⟨before, n, after, row, large, ?_, by rw [place]⟩
        simp only [replaced, ← place]

theorem needed_words (size : UInt32) : 12 ≤ needed size ∧ 4 ∣ needed size := by
  have words := toNat_rtAlign size
  unfold needed minSizeAligned
  split <;> omega

/-- The block at an address, when a thread has it. -/
theorem dataAt_iff {p : ℕ} {data : List (Option UInt8)} :
    a.dataAt p = some data ↔ blockAt p 0 a.blocks = some (.used data) := by
  unfold dataAt
  constructor
  · intro has
    split at has
    · rename_i data' found
      rw [found, Option.some.inj has]
    · cases has
  · intro found
    rw [found]

theorem extent_carve (size n : ℕ) : extent (carve size (.free n)) = 12 + n := by
  unfold carve
  split
  · rename_i large
    simp only [size_free] at large
    simp only [extent_cons, extent_nil, span_used, span_free, size_free, List.length_replicate]
    omega
  · simp

theorem wholeWords_carve {size n : ℕ} (words : 4 ≤ size ∧ 4 ∣ size)
    (free : WholeWords (.free n)) : ∀ b ∈ carve size (.free n), WholeWords b := by
  intro b member
  simp only [WholeWords, size_free] at free
  unfold carve at member
  split at member
  · rename_i large
    simp only [size_free] at large
    rcases List.mem_cons.mp member with rfl | rest
    · simpa [WholeWords] using words
    · obtain rfl := List.mem_singleton.mp rest
      simp only [WholeWords, size_free]
      omega
  · obtain rfl := List.mem_singleton.mp member
    simpa [WholeWords] using free

theorem settled_carve {before after : List HeapBlock} {size n : ℕ}
    (settled : Settled (before ++ .free n :: after)) :
    Settled (before ++ (carve size (.free n) ++ after)) := by
  have front : Settled before := settled.left_of_append
  have behind : Settled (.free n :: after) := settled.right_of_append
  unfold carve
  split
  · refine settled_used_iff.mpr ⟨front, ?_⟩
    cases after with
    | nil => exact .singleton _
    | cons c after =>
        obtain ⟨apart, rest⟩ := List.isChain_cons_cons.mp behind
        exact .cons_cons apart rest
  · exact settled_used_iff.mpr ⟨front, behind.tail⟩

/-- **The block that `malloc` returns is new**, and it is large enough. Every other block stays as
it is. -/
theorem dataAt_malloc {size : UInt32} {a' : BlockStore} {q : ℕ}
    (taken : a.malloc size = (a', some q)) :
    ∃ k, needed size ≤ k ∧ a'.dataAt q = some (List.replicate k none) ∧
      ∀ p data, a.dataAt p = some data → p ≠ q ∧ a'.dataAt p = some data := by
  unfold malloc at taken
  split at taken
  · cases taken
  · split at taken
    · cases taken
    · rename_i p found
      obtain ⟨rfl, rfl⟩ : _ = a' ∧ p = q := by simpa using taken
      obtain ⟨n, there, large, -⟩ := locate_eq_some found
      refine ⟨if needed size + 24 ≤ n then needed size else n, by split <;> omega, ?_, ?_⟩
      · obtain ⟨before, after, -, place, replaced⟩ := blockAt_eq_some there
        rw [dataAt_iff, replaced, place, carve]
        by_cases whole : needed size + 24 ≤ n
        · rw [if_pos whole, size_free, if_pos whole]
          exact blockAt_self
        · rw [if_neg whole, size_free, if_neg whole]
          exact blockAt_self
      · intro p' data has
        rw [dataAt_iff] at has
        have other : p' ≠ p := by
          rintro rfl
          rw [has] at there
          cases there
        refine ⟨other, dataAt_iff.mpr (blockAt_replaceAt has other there ?_)⟩
        rw [extent_carve, span_free]

/-- A block that a thread writes to. -/
theorem dataAt_setData {p q : ℕ} {data data' other : List (Option UInt8)}
    (has : a.dataAt p = some data) (apart : p ≠ q) (there : a.dataAt q = some other)
    (same : data'.length = other.length) : (a.setData q data').dataAt p = some data := by
  rw [dataAt_iff] at has there ⊢
  exact blockAt_replaceAt has apart there (by simp [same])

/-! ## What every store has -/

/-- Blocks of the same length in the place of one. -/
theorem Sound.replace (sound : a.Sound) {before after : List HeapBlock} {b : HeapBlock}
    (row : a.blocks = before ++ b :: after) (mid : List HeapBlock)
    (same : Kernel.extent mid = b.span)
    (words : ∀ c ∈ mid, WholeWords c) : Kernel.extent (before ++ (mid ++ after)) = a.total + 12 ∧
      ∀ c ∈ before ++ (mid ++ after), WholeWords c := by
  constructor
  · rw [← sound.extent, row]
    simp only [extent_append, extent_cons, same]
  · intro c member
    have sizes := sound.sizes
    rw [row] at sizes
    rcases List.mem_append.mp member with front | rest
    · exact sizes c (List.mem_append_left _ front)
    · rcases List.mem_append.mp rest with middle | behind
      · exact words c middle
      · exact sizes c (List.mem_append_right _ (List.mem_cons_of_mem _ behind))

/-- They may be joined with their neighbours. -/
theorem Sound.replace_coalesce (sound : a.Sound) {before after : List HeapBlock} {b : HeapBlock}
    (row : a.blocks = before ++ b :: after) (mid : List HeapBlock)
    (same : Kernel.extent mid = b.span)
    (words : ∀ c ∈ mid, WholeWords c) :
    Sound { a with blocks := coalesce (before ++ (mid ++ after)) } := by
  obtain ⟨extent_, sizes⟩ := sound.replace row mid same words
  exact ⟨(alike_coalesce _).extent.trans extent_, settled_coalesce _, wholeWords_coalesce sizes,
    sound.large⟩

theorem Sound.malloc (sound : a.Sound) (size : UInt32) : (a.malloc size).1.Sound := by
  rcases a.malloc_cases size with refused | ⟨before, n, after, row, large, taken, -⟩
  · rw [refused]
    exact sound
  · have free : WholeWords (.free n) := sound.sizes _ (by rw [row]; simp)
    obtain ⟨low, words⟩ := needed_words size
    obtain ⟨extent_, sizes⟩ := sound.replace row _ (extent_carve _ n)
      (wholeWords_carve ⟨by omega, words⟩ free)
    rw [taken]
    exact ⟨extent_, settled_carve (row ▸ sound.settled), sizes, sound.large⟩

theorem Sound.setData (sound : a.Sound) {p : ℕ} {data data' : List (Option UInt8)}
    (has : a.dataAt p = some data) (same : data'.length = data.length) :
    (a.setData p data').Sound := by
  obtain ⟨before, after, row, -, replaced⟩ := dataAt_eq_some has
  have used : WholeWords (.used data) := sound.sizes _ (by rw [row]; simp)
  obtain ⟨extent_, sizes⟩ := sound.replace row [.used data'] (by simp [same])
    (by simpa [WholeWords, same] using used)
  rw [BlockStore.setData, replaced]
  have apart := settled_used_iff.mp (row ▸ sound.settled)
  exact ⟨extent_, settled_used_iff.mpr apart, sizes, sound.large⟩

theorem Sound.release (sound : a.Sound) {p : ℕ} {data : List (Option UInt8)}
    (has : a.dataAt p = some data) : (a.release p).Sound := by
  obtain ⟨before, after, row, -, replaced⟩ := dataAt_eq_some has
  have used : WholeWords (.used data) := sound.sizes _ (by rw [row]; simp)
  rw [BlockStore.release, replaced]
  exact sound.replace_coalesce row _ (by simp) (by simpa [WholeWords] using used)

end BlockStore

end WhaleShark.Kernel

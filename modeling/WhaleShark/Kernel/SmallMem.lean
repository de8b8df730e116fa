import WhaleShark.Foundations.ByteMemory
import WhaleShark.Foundations.Runs

/-!
# The heap

The heap is a piece of memory in which each block has a header before it, with the offsets of the
next and the previous header. `rt_malloc` takes the first free block that is large enough, and makes
a block of what it leaves when that is large enough too. `rt_free` joins the block with free
neighbours (`plugHoles`). `rt_realloc` cuts a block in its place, or moves what it holds to a new
one.

Addresses are offsets from `heap_ptr`. The calls are made one at a time, as a semaphore has it;
between them the threads write and read their blocks. That `rt_realloc` is one step is assumed: it
releases the semaphore before it calls `rt_malloc`, copies and calls `rt_free`.
-/

set_option autoImplicit false

namespace WhaleShark.Kernel

open Foundations

/-- `HEAP_MAGIC` -/
def heapMagic : ℕ := 0x1ea0

/-- `SIZEOF_STRUCT_MEM` -/
def sizeofStructMem : ℕ := 12

/-- `MIN_SIZE` and `MIN_SIZE_ALIGNED` -/
def minSizeAligned : ℕ := 12

/-- `RT_ALIGN(size, RT_ALIGN_SIZE)` -/
def rtAlign (size : UInt32) : UInt32 := (size + 4 - 1) &&& ~~~(4 - 1)

/-- `RT_ALIGN_DOWN(size, RT_ALIGN_SIZE)` -/
def rtAlignDown (size : UInt32) : UInt32 := size &&& ~~~(4 - 1)

theorem toNat_rtAlignDown (size : UInt32) : (rtAlignDown size).toNat = 4 * (size.toNat / 4) := by
  have mask : (~~~(4 - 1) : UInt32).toNat = 0xfffffffc := by decide
  have bound := size.toNat_lt
  have quotient : (size.toNat &&& 0xfffffffc) / 2 ^ 2 = size.toNat / 2 ^ 2 := by
    rw [Nat.and_div_two_pow]
    exact Nat.and_two_pow_sub_one_of_lt_two_pow (n := 30) (by omega)
  have words : (size.toNat &&& 0xfffffffc) % 2 ^ 2 = 0 := by
    rw [Nat.and_mod_two_pow]
    simp
  rw [rtAlignDown, UInt32.toNat_and, mask]
  omega

/-- The next multiple of 4, cut to 32 bits. -/
theorem toNat_rtAlign (size : UInt32) :
    (rtAlign size).toNat = 4 * ((size.toNat + 3) % 0x100000000 / 4) := by
  have sum : (size + 4 - 1).toNat = (size.toNat + 3) % 0x100000000 := by
    have three : size + 4 - 1 = size + 3 := by
      rw [UInt32.sub_eq_add_neg, UInt32.add_assoc]
      rfl
    rw [three, UInt32.toNat_add]
    rfl
  rw [← sum]
  exact toNat_rtAlignDown _

@[simp] theorem rtAlign_rtAlign (size : UInt32) : rtAlign (rtAlign size) = rtAlign size := by
  rw [← UInt32.toNat_inj, toNat_rtAlign, toNat_rtAlign]
  omega

/-- `a - b` as an `rt_size_t` -/
def sizeSub (a b : ℕ) : ℕ := (a + 0x100000000 - b) % 0x100000000

theorem sizeSub_of_le {a b : ℕ} (le : b ≤ a) (small : a < 0x100000000) : sizeSub a b = a - b := by
  unfold sizeSub
  omega

/-- The memory at `heap_ptr`, and the variables of the heap. -/
structure SmallMem where
  mem : ByteMemory
  lfree : ℕ
  memSizeAligned : ℕ
  usedMem : ℕ
  maxMem : ℕ

namespace SmallMem

variable (s : SmallMem)

/-! ## The headers -/

/-- `((struct heap_mem *)&heap_ptr[p])->magic` -/
def magic (p : ℕ) : ℕ := s.mem.readLe p 2

def used (p : ℕ) : ℕ := s.mem.readLe (p + 2) 2

def next (p : ℕ) : ℕ := s.mem.readLe (p + 4) 4

def prev (p : ℕ) : ℕ := s.mem.readLe (p + 8) 4

/-- The magic of a header is only ever set to `HEAP_MAGIC`. -/
def setMagic (p : ℕ) : SmallMem := { s with mem := s.mem.writeLe p 2 heapMagic }

def setUsed (p v : ℕ) : SmallMem := { s with mem := s.mem.writeLe (p + 2) 2 v }

def setNext (p v : ℕ) : SmallMem := { s with mem := s.mem.writeLe (p + 4) 4 v }

def setPrev (p v : ℕ) : SmallMem := { s with mem := s.mem.writeLe (p + 8) 4 v }

/-- `heap_end` -/
def heapEnd : ℕ := s.memSizeAligned + sizeofStructMem

/-- `rt_system_heap_init`, on memory at the aligned begin. Nothing is set up when there is no room
for two headers. -/
def rtSystemHeapInit (memory : ByteMemory) (beginAddr endAddr : UInt32) : Option SmallMem :=
  let beginAlign := rtAlign beginAddr
  let endAlign := rtAlignDown endAddr
  if 2 * 12 < endAlign ∧ beginAlign ≤ endAlign - 2 * 12 then
    let memSizeAligned := (endAlign - beginAlign - 2 * 12).toNat
    let s : SmallMem := ⟨memory, 0, memSizeAligned, 0, 0⟩
    let s := s.setMagic 0
    let s := s.setNext 0 (memSizeAligned + sizeofStructMem)
    let s := s.setPrev 0 0
    let s := s.setUsed 0 0
    let s := s.setMagic s.heapEnd
    let s := s.setUsed s.heapEnd 1
    let s := s.setNext s.heapEnd (memSizeAligned + sizeofStructMem)
    some (s.setPrev s.heapEnd (memSizeAligned + sizeofStructMem))
  else none

/-! ## `rt_malloc` -/

/-- The loop from `lfree` on, for so many rounds: the block that is large enough, if there is one.
With `none` it goes on. -/
def mallocSearch (size : ℕ) : ℕ → ℕ → Option (Option ℕ)
  | 0, _ => none
  | rounds + 1, ptr =>
      if ptr < sizeSub s.memSizeAligned size then
        if s.used ptr = 0 ∧ size ≤ sizeSub (s.next ptr) (ptr + sizeofStructMem) then some (some ptr)
        else mallocSearch size rounds (s.next ptr)
      else some none

/-- `used_mem += n`, and the maximum -/
def addUsed (n : ℕ) : SmallMem :=
  let usedMem := s.usedMem + n
  { s with usedMem := usedMem, maxMem := if s.maxMem < usedMem then usedMem else s.maxMem }

/-- A header is put at `ptr2`, between that at `ptr` and the next one. -/
def insertHeader (ptr ptr2 : ℕ) : SmallMem :=
  let s := s.setMagic ptr2
  let s := s.setUsed ptr2 0
  let s := s.setNext ptr2 (s.next ptr)
  let s := s.setPrev ptr2 ptr
  let s := s.setNext ptr ptr2
  if s.next ptr2 ≠ s.heapEnd then s.setPrev (s.next ptr2) ptr2 else s

/-- The block at `ptr` is taken, and what it leaves becomes a block if it is large enough. -/
def takeBlock (ptr size : ℕ) : SmallMem :=
  if size + sizeofStructMem + minSizeAligned ≤ sizeSub (s.next ptr) (ptr + sizeofStructMem) then
    let s := s.insertHeader ptr (ptr + sizeofStructMem + size)
    let s := s.setUsed ptr 1
    s.addUsed (size + sizeofStructMem)
  else
    let s := s.setUsed ptr 1
    s.addUsed (sizeSub (s.next ptr) ptr)

/-- `while (lfree->used && lfree != heap_end) lfree = lfree->next` -/
def advanceLfree : ℕ → SmallMem → Option SmallMem
  | 0, _ => none
  | rounds + 1, s =>
      if s.used s.lfree ≠ 0 ∧ s.lfree ≠ s.heapEnd then
        advanceLfree rounds { s with lfree := s.next s.lfree }
      else some s

/-- So many rounds of a loop over the headers are enough. -/
def rounds : ℕ := s.memSizeAligned + 2

def rtMalloc (size : UInt32) : Option (SmallMem × Option ℕ) :=
  if size = 0 then some (s, none)
  else
    let size := (rtAlign size).toNat
    if s.memSizeAligned < size then some (s, none)
    else
      let size := if size < minSizeAligned then minSizeAligned else size
      match s.mallocSearch size s.rounds s.lfree with
      | none => none
      | some none => some (s, none)
      | some (some ptr) =>
          let s := (s.takeBlock ptr size).setMagic ptr
          (if ptr = s.lfree then advanceLfree s.rounds s else some s).map
            fun s => (s, some (ptr + sizeofStructMem))

/-! ## `rt_free` -/

/-- The header of `nmem` is taken out, which follows that of `mem`. -/
def join (mem nmem : ℕ) : SmallMem :=
  let s := s.setNext mem (s.next nmem)
  s.setPrev (s.next nmem) mem

/-- `plug_holes` -/
def plugHoles (mem : ℕ) : SmallMem :=
  let nmem := s.next mem
  let s :=
    if mem ≠ nmem ∧ s.used nmem = 0 ∧ nmem ≠ s.heapEnd then
      ({ s with lfree := if s.lfree = nmem then mem else s.lfree } : SmallMem).join mem nmem
    else s
  let pmem := s.prev mem
  if pmem ≠ mem ∧ s.used pmem = 0 then
    ({ s with lfree := if s.lfree = mem then pmem else s.lfree } : SmallMem).join pmem mem
  else s

/-- `rt_free`, and whether it complains of a bad block. -/
def rtFree : Option ℕ → SmallMem × Bool
  | none => (s, false)
  | some rmem =>
      if s.heapEnd ≤ rmem then (s, false)
      else
        let mem := rmem - sizeofStructMem
        let bad := s.used mem = 0 ∨ s.magic mem ≠ heapMagic
        let s' := (s.setUsed mem 0).setMagic mem
        let s' := { s' with
          lfree := if mem < s'.lfree then mem else s'.lfree
          usedMem := sizeSub s'.usedMem (sizeSub (s'.next mem) mem) }
        (s'.plugHoles mem, bad)

/-! ## `rt_realloc` and `rt_calloc` -/

/-- The block at `ptr` of that size is cut. -/
def cut (ptr size newsize : ℕ) : SmallMem :=
  let s := { s with usedMem := sizeSub s.usedMem (sizeSub size newsize) }
  let ptr2 := ptr + sizeofStructMem + newsize
  let s := s.insertHeader ptr ptr2
  let s := { s with lfree := if ptr2 < s.lfree then ptr2 else s.lfree }
  s.plugHoles ptr2

def rtRealloc (rmem : Option ℕ) (newsize : UInt32) : Option (SmallMem × Option ℕ) :=
  let aligned := rtAlign newsize
  let newsize := aligned.toNat
  if s.memSizeAligned < newsize then some (s, none)
  else if newsize = 0 then some ((s.rtFree rmem).1, none)
  else
    match rmem with
    | none => s.rtMalloc aligned
    | some rmem =>
        if s.heapEnd ≤ rmem then some (s, some rmem)
        else
          let ptr := rmem - sizeofStructMem
          let size := sizeSub (sizeSub (s.next ptr) ptr) sizeofStructMem
          if size = newsize then some (s, some rmem)
          else if newsize + sizeofStructMem + minSizeAligned < size then
            some (s.cut ptr size newsize, some rmem)
          else
            match s.rtMalloc aligned with
            | none => none
            | some (s, none) => some (s, none)
            | some (s, some nmem) =>
                let n := if size < newsize then size else newsize
                let s := { s with mem := s.mem.copy nmem rmem n }
                some ((s.rtFree (some rmem)).1, some nmem)

def rtCalloc (count size : UInt32) : Option (SmallMem × Option ℕ) :=
  match s.rtMalloc (count * size) with
  | none => none
  | some (s, none) => some (s, none)
  | some (s, some p) => some ({ s with mem := s.mem.fill p (count * size).toNat 0 }, some p)

end SmallMem

/-! ## The system -/

inductive HeapEvent where
  | malloc (size : UInt32)
  | calloc (count size : UInt32)
  | realloc (rmem : Option ℕ) (newsize : UInt32)
  | free (rmem : Option ℕ)
  /-- A thread writes the `i`-th byte of its block. -/
  | store (rmem i : ℕ) (b : UInt8)
  /-- It reads it. -/
  | load (rmem i : ℕ)
  /-- `rt_memory_info` -/
  | info
  deriving DecidableEq

inductive HeapOutput where
  | pointer (rmem : Option ℕ)
  /-- whether `rt_free` complains of a bad block -/
  | freed (bad : Bool)
  | stored
  | byte (b : UInt8)
  | info (total used maxUsed : ℕ)
  deriving DecidableEq

/-- The heap and the threads that use it. -/
def smallMem : Machine SmallMem HeapEvent HeapOutput where
  step s
    | .malloc size => (s.rtMalloc size).map fun (s, rmem) => (s, .pointer rmem)
    | .calloc count size => (s.rtCalloc count size).map fun (s, rmem) => (s, .pointer rmem)
    | .realloc rmem newsize =>
        (s.rtRealloc rmem newsize).map fun (s, rmem) => (s, .pointer rmem)
    | .free rmem => some ((s.rtFree rmem).1, .freed (s.rtFree rmem).2)
    | .store rmem i b => some ({ s with mem := Function.update s.mem (rmem + i) b }, .stored)
    | .load rmem i => some (s, .byte (s.mem (rmem + i)))
    | .info => some (s, .info s.memSizeAligned s.usedMem s.maxMem)

end WhaleShark.Kernel

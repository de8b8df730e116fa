import WhaleShark.Foundations.Rings
import WhaleShark.Foundations.Simulations

/-!
# The ring buffer of the drivers

`struct rt_ringbuffer` has a pool of bytes and two indices, each with a mirror bit that is flipped
when the index comes past the end. Equal indices with equal bits mean that there is nothing, with
different bits that the pool is full. Blocks of bytes are copied in one piece or in two.

All of that is a queue of at most `bufferSize` bytes (`boundedQueue`), with one exception. When
`rt_ringbuffer_put_force` has to give up old bytes although reader and writer are on the same side,
it flips both bits and leaves the ring empty. A run is a run of the queue exactly if that does not
happen (`ring_is_queue_iff`).
-/

set_option autoImplicit false

namespace WhaleShark.Kernel

open Foundations

variable {bufferSize : ℕ}

/-- `struct rt_ringbuffer` -/
structure RtRingbuffer (bufferSize : ℕ) where
  bufferPtr : Fin bufferSize → UInt8
  readMirror : Bool
  readIndex : Fin bufferSize
  writeMirror : Bool
  writeIndex : Fin bufferSize

/-- `enum rt_ringbuffer_state` -/
inductive RtRingbufferState where
  | empty
  | full
  | halffull
  deriving DecidableEq

namespace RtRingbuffer

/-- `rt_ringbuffer_init` -/
def rtRingbufferInit (pool : Fin bufferSize → UInt8) (some_ : 0 < bufferSize) :
    RtRingbuffer bufferSize where
  bufferPtr := pool
  readMirror := false
  readIndex := ⟨0, some_⟩
  writeMirror := false
  writeIndex := ⟨0, some_⟩

variable (rb : RtRingbuffer bufferSize)

theorem positive (rb : RtRingbuffer bufferSize) : 0 < bufferSize :=
  Nat.zero_lt_of_lt rb.readIndex.isLt

def rtRingbufferStatus : RtRingbufferState :=
  if rb.readIndex = rb.writeIndex then
    if rb.readMirror = rb.writeMirror then .empty else .full
  else .halffull

def rtRingbufferDataLen : ℕ :=
  match rb.rtRingbufferStatus with
  | .empty => 0
  | .full => bufferSize
  | .halffull =>
      if rb.readIndex < rb.writeIndex then rb.writeIndex - rb.readIndex
      else bufferSize - (rb.readIndex - rb.writeIndex)

theorem rtRingbufferDataLen_le : rb.rtRingbufferDataLen ≤ bufferSize := by
  have read := rb.readIndex.isLt
  have write := rb.writeIndex.isLt
  unfold rtRingbufferDataLen
  split
  · exact Nat.zero_le _
  · exact Nat.le_refl _
  · split <;> omega

def rtRingbufferSpaceLen : ℕ := bufferSize - rb.rtRingbufferDataLen

/-- What `rt_ringbuffer_put` and `rt_ringbuffer_put_force` do with the bytes that they store: one
copy while the end is not reached, else two. -/
def store (bytes : List UInt8) (fits : bytes.length ≤ bufferSize) : RtRingbuffer bufferSize :=
  if inside : bytes.length < bufferSize - rb.writeIndex then
    { rb with
      bufferPtr := Ring.copyTo rb.bufferPtr rb.writeIndex bytes
      writeIndex := ⟨rb.writeIndex + bytes.length, by omega⟩ }
  else
    { rb with
      bufferPtr :=
        Ring.copyTo (Ring.copyTo rb.bufferPtr rb.writeIndex
          (bytes.take (bufferSize - rb.writeIndex))) 0 (bytes.drop (bufferSize - rb.writeIndex))
      writeMirror := !rb.writeMirror
      writeIndex := ⟨bytes.length - (bufferSize - rb.writeIndex), by
        have := rb.writeIndex.isLt
        omega⟩ }

def rtRingbufferPut (ptr : List UInt8) : RtRingbuffer bufferSize × ℕ :=
  if rb.rtRingbufferSpaceLen = 0 then (rb, 0)
  else
    -- `drop some data`
    (rb.store (ptr.take rb.rtRingbufferSpaceLen)
      ((List.length_take_le _ _).trans (Nat.sub_le _ _)), min rb.rtRingbufferSpaceLen ptr.length)

/-- Of a block that is longer than the pool only the last bytes are stored. -/
def lastBytes (bufferSize : ℕ) (ptr : List UInt8) : List UInt8 :=
  if bufferSize < ptr.length then ptr.drop (ptr.length - bufferSize) else ptr

theorem length_lastBytes (ptr : List UInt8) :
    (lastBytes bufferSize ptr).length = min ptr.length bufferSize := by
  unfold lastBytes
  split
  · rw [List.length_drop]
    omega
  · omega

/-- What `rt_ringbuffer_put_force` does with those. -/
def storeForce (bytes : List UInt8) (fits : bytes.length ≤ bufferSize) : RtRingbuffer bufferSize :=
  let stored := rb.store bytes fits
  if rb.rtRingbufferSpaceLen < bytes.length then
    if bytes.length < bufferSize - rb.writeIndex then
      { stored with readIndex := stored.writeIndex }
    else { stored with readMirror := !stored.readMirror, readIndex := stored.writeIndex }
  else stored

def rtRingbufferPutForce (ptr : List UInt8) : RtRingbuffer bufferSize × ℕ :=
  (rb.storeForce (lastBytes bufferSize ptr)
    ((length_lastBytes ptr).trans_le (Nat.min_le_right _ _)), (lastBytes bufferSize ptr).length)

/-- What `rt_ringbuffer_get` does once it knows how many bytes it takes: one copy while the end is
not reached, else two. -/
def take (size : ℕ) (fits : size ≤ bufferSize) : RtRingbuffer bufferSize × List UInt8 :=
  if inside : size < bufferSize - rb.readIndex then
    ({ rb with readIndex := ⟨rb.readIndex + size, by omega⟩ },
      Ring.row rb.bufferPtr rb.readIndex size)
  else
    ({ rb with
        readMirror := !rb.readMirror
        readIndex := ⟨size - (bufferSize - rb.readIndex), by
          have := rb.readIndex.isLt
          omega⟩ },
      Ring.row rb.bufferPtr rb.readIndex (bufferSize - rb.readIndex) ++
        Ring.row rb.bufferPtr ⟨0, rb.positive⟩ (size - (bufferSize - rb.readIndex)))

def rtRingbufferGet (length : ℕ) : RtRingbuffer bufferSize × List UInt8 :=
  if rb.rtRingbufferDataLen = 0 then (rb, [])
  else
    -- `less data`
    rb.take (min length rb.rtRingbufferDataLen)
      ((Nat.min_le_right _ _).trans rb.rtRingbufferDataLen_le)

/-- What `rt_ringbuffer_putchar` and `rt_ringbuffer_putchar_force` do with the byte. -/
def storeChar (ch : UInt8) : RtRingbuffer bufferSize :=
  if last : rb.writeIndex.val = bufferSize - 1 then
    { rb with
      bufferPtr := Function.update rb.bufferPtr rb.writeIndex ch
      writeMirror := !rb.writeMirror
      writeIndex := ⟨0, rb.positive⟩ }
  else
    { rb with
      bufferPtr := Function.update rb.bufferPtr rb.writeIndex ch
      writeIndex := ⟨rb.writeIndex + 1, by
        have := rb.writeIndex.isLt
        omega⟩ }

def rtRingbufferPutchar (ch : UInt8) : RtRingbuffer bufferSize × ℕ :=
  if rb.rtRingbufferSpaceLen = 0 then (rb, 0) else (rb.storeChar ch, 1)

def rtRingbufferPutcharForce (ch : UInt8) : RtRingbuffer bufferSize × ℕ :=
  let stored := rb.storeChar ch
  if rb.rtRingbufferStatus = .full then
    if rb.writeIndex.val = bufferSize - 1 then
      ({ stored with readMirror := !stored.readMirror, readIndex := stored.writeIndex }, 1)
    else ({ stored with readIndex := stored.writeIndex }, 1)
  else (stored, 1)

/-- The byte, if there is one. -/
def rtRingbufferGetchar : RtRingbuffer bufferSize × List UInt8 :=
  if rb.rtRingbufferDataLen = 0 then (rb, [])
  else if last : rb.readIndex.val = bufferSize - 1 then
    ({ rb with readMirror := !rb.readMirror, readIndex := ⟨0, rb.positive⟩ },
      [rb.bufferPtr rb.readIndex])
  else
    ({ rb with
        readIndex := ⟨rb.readIndex + 1, by
          have := rb.readIndex.isLt
          omega⟩ },
      [rb.bufferPtr rb.readIndex])

def rtRingbufferReset : RtRingbuffer bufferSize where
  bufferPtr := rb.bufferPtr
  readMirror := false
  readIndex := ⟨0, rb.positive⟩
  writeMirror := false
  writeIndex := ⟨0, rb.positive⟩

end RtRingbuffer

inductive RbEvent where
  | put (ptr : List UInt8)
  | putForce (ptr : List UInt8)
  | putchar (ch : UInt8)
  | putcharForce (ch : UInt8)
  | get (length : ℕ)
  | getchar
  | reset
  deriving DecidableEq

inductive RbOutput where
  /-- the number of bytes that were put in -/
  | count (length : ℕ)
  /-- the bytes that were got -/
  | data (bytes : List UInt8)
  | nothing
  deriving DecidableEq

open RtRingbuffer in
/-- The calls in any order. -/
def ringbuffer (bufferSize : ℕ) : Machine (RtRingbuffer bufferSize) RbEvent RbOutput where
  step rb
    | .put ptr => some ((rb.rtRingbufferPut ptr).map id .count)
    | .putForce ptr => some ((rb.rtRingbufferPutForce ptr).map id .count)
    | .putchar ch => some ((rb.rtRingbufferPutchar ch).map id .count)
    | .putcharForce ch => some ((rb.rtRingbufferPutcharForce ch).map id .count)
    | .get length => some ((rb.rtRingbufferGet length).map id .data)
    | .getchar => some (rb.rtRingbufferGetchar.map id .data)
    | .reset => some (rb.rtRingbufferReset, .nothing)

/-- A queue of at most `bufferSize` bytes. -/
def boundedQueue (bufferSize : ℕ) : Machine (List UInt8) RbEvent RbOutput where
  step q
    | .put ptr =>
        some (q ++ ptr.take (bufferSize - q.length),
          .count (min (bufferSize - q.length) ptr.length))
    | .putForce ptr =>
        some ((q ++ ptr).drop (q.length + ptr.length - bufferSize),
          .count (min ptr.length bufferSize))
    | .putchar ch =>
        if q.length < bufferSize then some (q ++ [ch], .count 1) else some (q, .count 0)
    | .putcharForce ch => some ((q ++ [ch]).drop (q.length + 1 - bufferSize), .count 1)
    | .get length => some (q.drop length, .data (q.take length))
    | .getchar => some (q.drop 1, .data (q.take 1))
    | .reset => some ([], .nothing)

/-! ## What is in the ring -/

namespace RtRingbuffer

variable (rb : RtRingbuffer bufferSize)

def readMark : Ring.Mark bufferSize := ⟨rb.readMirror, rb.readIndex⟩

def writeMark : Ring.Mark bufferSize := ⟨rb.writeMirror, rb.writeIndex⟩

@[simp] theorem place_readMark : rb.readMark.place = rb.readIndex := rfl

@[simp] theorem place_writeMark : rb.writeMark.place = rb.writeIndex := rfl

/-- `n` bytes are in the ring: the writer is so far ahead of the reader. -/
structure Holds (n : ℕ) : Prop where
  within : n ≤ bufferSize
  ahead : rb.writeMark = rb.readMark.ahead n

/-- The bytes, the oldest one first. -/
def contents : List UInt8 := Ring.row rb.bufferPtr rb.readIndex rb.rtRingbufferDataLen

variable {rb}

theorem dataLen_eq : rb.rtRingbufferDataLen =
    if rb.readIndex.val = rb.writeIndex.val then
      if rb.readMirror = rb.writeMirror then 0 else bufferSize
    else if rb.readIndex.val < rb.writeIndex.val then rb.writeIndex.val - rb.readIndex.val
    else bufferSize - (rb.readIndex.val - rb.writeIndex.val) := by
  unfold rtRingbufferDataLen rtRingbufferStatus
  simp only [Fin.ext_iff, Fin.lt_def]
  by_cases same : rb.readIndex.val = rb.writeIndex.val
  · by_cases mirrors : rb.readMirror = rb.writeMirror
    · simp [same, mirrors]
    · simp [same, mirrors]
  · simp [same]

/-- The two indices and their bits tell how many bytes there are. -/
theorem Holds.dataLen {n : ℕ} (holds : rb.Holds n) : rb.rtRingbufferDataLen = n := by
  have read := rb.readIndex.isLt
  have bound := holds.within
  have ahead := holds.ahead
  rw [dataLen_eq]
  rcases Nat.lt_or_ge (rb.readIndex + n) bufferSize with inside | past
  · rw [Ring.Mark.ahead_inside inside] at ahead
    obtain ⟨side, place⟩ := Ring.Mark.mk.inj ahead
    have at_ : rb.writeIndex.val = rb.readIndex.val + n := congrArg Fin.val place
    have same : rb.readMirror = rb.writeMirror := side.symm
    rw [if_pos same]
    split
    · omega
    · rw [if_pos (by omega)]
      omega
  · rw [Ring.Mark.ahead_past past bound] at ahead
    obtain ⟨side, place⟩ := Ring.Mark.mk.inj ahead
    have at_ : rb.writeIndex.val = n - (bufferSize - rb.readIndex.val) := congrArg Fin.val place
    have apart : rb.readMirror ≠ rb.writeMirror := fun same =>
      Bool.not_ne_self _ (side.symm.trans same.symm)
    rw [if_neg apart]
    split
    · omega
    · rw [if_neg (by omega)]
      omega

theorem Holds.spaceLen {n : ℕ} (holds : rb.Holds n) :
    rb.rtRingbufferSpaceLen = bufferSize - n := by
  rw [rtRingbufferSpaceLen, holds.dataLen]

theorem Holds.contents {n : ℕ} (holds : rb.Holds n) :
    rb.contents = Ring.row rb.bufferPtr rb.readIndex n := by
  rw [RtRingbuffer.contents, holds.dataLen]

theorem Holds.writeIndex {n : ℕ} (holds : rb.Holds n) :
    rb.writeIndex = Ring.ahead rb.readIndex n :=
  congrArg Ring.Mark.place holds.ahead

/-- A full ring: the writer is a whole round ahead. -/
theorem holds_all (place : rb.readIndex = rb.writeIndex) (side : rb.readMirror ≠ rb.writeMirror) :
    rb.Holds bufferSize := by
  have read := rb.readIndex.isLt
  refine ⟨Nat.le_refl _, ?_⟩
  rw [Ring.Mark.ahead_past (Nat.le_add_left _ _) (Nat.le_refl _)]
  have around : bufferSize - (bufferSize - rb.readIndex.val) = rb.writeIndex.val := by
    rw [← place]
    omega
  exact congrArg₂ Ring.Mark.mk (Bool.eq_not_of_ne side.symm) (Fin.ext around.symm)

theorem holds_none (place : rb.readIndex = rb.writeIndex) (side : rb.readMirror = rb.writeMirror) :
    rb.Holds 0 := by
  refine ⟨Nat.zero_le _, ?_⟩
  rw [Ring.Mark.ahead_inside (by simp)]
  exact congrArg₂ Ring.Mark.mk side.symm (Fin.ext (congrArg Fin.val place.symm))

/-! ## Storing -/

/-- Bytes are stored where the writer is, which goes on by as many places. -/
structure Stored (rb rb' : RtRingbuffer bufferSize) (bytes : List UInt8) : Prop where
  bufferPtr : rb'.bufferPtr = Ring.overwrite rb.bufferPtr rb.writeIndex bytes
  writeMark : rb'.writeMark = rb.writeMark.ahead bytes.length
  readMark : rb'.readMark = rb.readMark

theorem stored_store (bytes : List UInt8) (fits : bytes.length ≤ bufferSize) :
    Stored rb (rb.store bytes fits) bytes := by
  have write := rb.writeIndex.isLt
  unfold store
  split
  · rename_i inside
    refine ⟨Ring.copyTo_eq_overwrite bytes rb.bufferPtr rb.writeIndex (by omega), ?_, rfl⟩
    rw [Ring.Mark.ahead_inside (by rw [place_writeMark]; omega)]
    rfl
  · refine ⟨Ring.copyTo_around bytes rb.bufferPtr rb.writeIndex (by omega) fits, ?_, rfl⟩
    rw [Ring.Mark.ahead_past (by rw [place_writeMark]; omega) fits]
    rfl

theorem stored_storeChar (ch : UInt8) : Stored rb (rb.storeChar ch) [ch] := by
  have write := rb.writeIndex.isLt
  unfold storeChar
  split
  · rename_i last
    refine ⟨rfl, ?_, rfl⟩
    rw [List.length_singleton, Ring.Mark.ahead_past (by rw [place_writeMark]; omega) (by omega)]
    exact congrArg₂ Ring.Mark.mk rfl (Fin.ext (by simp; omega))
  · refine ⟨rfl, ?_, rfl⟩
    rw [List.length_singleton, Ring.Mark.ahead_inside (by rw [place_writeMark]; omega)]
    rfl

variable {rb' : RtRingbuffer bufferSize} {bytes : List UInt8} {n : ℕ}

/-- Bytes for which there is room come behind the others. -/
theorem Stored.behind (stored : Stored rb rb' bytes) (holds : rb.Holds n)
    (room : n + bytes.length ≤ bufferSize) :
    rb'.Holds (n + bytes.length) ∧ rb'.contents = rb.contents ++ bytes := by
  have after : rb'.Holds (n + bytes.length) :=
    ⟨room, by rw [stored.writeMark, stored.readMark, holds.ahead, Ring.Mark.ahead_ahead]⟩
  have same : rb'.readIndex = rb.readIndex := congrArg Ring.Mark.place stored.readMark
  refine ⟨after, ?_⟩
  rw [after.contents, holds.contents, stored.bufferPtr, same, holds.writeIndex,
    Ring.row_overwrite bytes _ _ room]

/-- Where there is no room for them, the reader is put to where the writer is, on the other side:
the oldest bytes are given up. -/
theorem Stored.instead (stored : Stored rb rb' bytes) (holds : rb.Holds n)
    (fits : bytes.length ≤ bufferSize) (more : bufferSize < n + bytes.length) {readMirror : Bool}
    (side : readMirror ≠ rb'.writeMirror) :
    { rb' with readMirror := readMirror, readIndex := rb'.writeIndex }.Holds bufferSize ∧
      { rb' with readMirror := readMirror, readIndex := rb'.writeIndex }.contents =
        (rb.contents ++ bytes).drop (n + bytes.length - bufferSize) := by
  have after : { rb' with readMirror := readMirror, readIndex := rb'.writeIndex }.Holds
      bufferSize := holds_all rfl side
  have within := holds.within
  -- what is given up, and what is left of the old bytes
  obtain ⟨k, count⟩ : ∃ k, n + bytes.length = bufferSize + k := Nat.exists_eq_add_of_le more.le
  have old : k ≤ n := by omega
  have start : rb'.writeIndex = Ring.ahead rb.readIndex k := by
    have target : rb'.writeIndex = Ring.ahead rb.writeIndex bytes.length :=
      congrArg Ring.Mark.place stored.writeMark
    rw [target, holds.writeIndex, Ring.ahead_ahead, count, Nat.add_comm, ← Ring.ahead_ahead]
    exact (Ring.ahead_eq_self_iff (Nat.le_refl _)).mpr (.inr rfl)
  have place : rb.writeIndex = Ring.ahead (Ring.ahead rb.readIndex k) (n - k) := by
    rw [Ring.ahead_ahead, Nat.add_sub_cancel' old, holds.writeIndex]
  have size : n - k + bytes.length = bufferSize := by omega
  have written := Ring.row_overwrite bytes rb.bufferPtr (Ring.ahead rb.readIndex k) size.le
  rw [size] at written
  refine ⟨after, ?_⟩
  rw [after.contents, holds.contents, count, Nat.add_sub_cancel_left,
    List.drop_append_of_le_length (by rw [Ring.length_row]; exact old), Ring.drop_row _ _ old]
  change Ring.row rb'.bufferPtr rb'.writeIndex bufferSize = _
  rw [stored.bufferPtr, start, place]
  exact written

/-! ## Taking -/

/-- The reader goes on by some places. -/
structure Taken (rb rb' : RtRingbuffer bufferSize) (k : ℕ) : Prop where
  bufferPtr : rb'.bufferPtr = rb.bufferPtr
  writeMark : rb'.writeMark = rb.writeMark
  readMark : rb'.readMark = rb.readMark.ahead k

theorem Taken.rest {k : ℕ} (taken : Taken rb rb' k) (holds : rb.Holds n) (enough : k ≤ n) :
    rb'.Holds (n - k) ∧ rb'.contents = rb.contents.drop k := by
  have after : rb'.Holds (n - k) := by
    refine ⟨(Nat.sub_le n k).trans holds.within, ?_⟩
    rw [taken.writeMark, taken.readMark, holds.ahead, Ring.Mark.ahead_ahead,
      Nat.add_sub_cancel' enough]
  have start : rb'.readIndex = Ring.ahead rb.readIndex k := congrArg Ring.Mark.place taken.readMark
  refine ⟨after, ?_⟩
  rw [after.contents, holds.contents, Ring.drop_row _ _ enough, taken.bufferPtr, start]

theorem taken_take {k : ℕ} (fits : k ≤ bufferSize) : Taken rb (rb.take k fits).1 k := by
  have read := rb.readIndex.isLt
  unfold take
  split
  · exact ⟨rfl, rfl, by rw [Ring.Mark.ahead_inside (by rw [place_readMark]; omega)]; rfl⟩
  · refine ⟨rfl, rfl, ?_⟩
    rw [Ring.Mark.ahead_past (by rw [place_readMark]; omega) fits]
    rfl

theorem bytes_take {k : ℕ} (fits : k ≤ bufferSize) :
    (rb.take k fits).2 = Ring.row rb.bufferPtr rb.readIndex k := by
  have read := rb.readIndex.isLt
  unfold take
  split
  · rfl
  · have start : (⟨0, rb.positive⟩ : Fin bufferSize) =
        Ring.ahead rb.readIndex (bufferSize - rb.readIndex) :=
      Fin.ext (by simp [Ring.ahead, Nat.add_sub_cancel' (Nat.le_of_lt read)])
    rw [start, ← Ring.row_add, Nat.add_sub_cancel' (by omega)]

/-- `rt_ringbuffer_get` takes from the front. -/
theorem get_eq (holds : rb.Holds n) (length : ℕ) :
    (∃ k, (rb.rtRingbufferGet length).1.Holds k) ∧
      (rb.rtRingbufferGet length).1.contents = rb.contents.drop length ∧
      (rb.rtRingbufferGet length).2 = rb.contents.take length := by
  have whole : rb.contents.length = n := by rw [holds.contents, Ring.length_row]
  have count : rb.rtRingbufferDataLen = n := holds.dataLen
  unfold rtRingbufferGet
  split
  · rename_i nothing
    have empty : rb.contents = [] := List.length_eq_zero_iff.mp (by omega)
    exact ⟨⟨n, holds⟩, by rw [empty, List.drop_nil], by rw [empty, List.take_nil]⟩
  · have enough : min length rb.rtRingbufferDataLen ≤ n := count ▸ Nat.min_le_right _ _
    obtain ⟨after, rest⟩ := (taken_take _).rest holds enough
    refine ⟨⟨_, after⟩, ?_, ?_⟩
    · rw [rest, count, ← whole, ← List.drop_eq_drop_min]
    · rw [bytes_take, ← Ring.take_row _ _ enough, ← holds.contents, count, ← whole,
        ← List.take_eq_take_min]

/-- `rt_ringbuffer_getchar` takes the first byte. -/
theorem getchar_eq (holds : rb.Holds n) :
    (∃ k, rb.rtRingbufferGetchar.1.Holds k) ∧
      rb.rtRingbufferGetchar.1.contents = rb.contents.drop 1 ∧
      rb.rtRingbufferGetchar.2 = rb.contents.take 1 := by
  have read := rb.readIndex.isLt
  have whole : rb.contents.length = n := by rw [holds.contents, Ring.length_row]
  unfold rtRingbufferGetchar
  rw [holds.dataLen]
  split
  · rename_i nothing
    have empty : rb.contents = [] := List.length_eq_zero_iff.mp (whole.trans nothing)
    exact ⟨⟨n, holds⟩, by rw [empty, List.drop_nil], by rw [empty, List.take_nil]⟩
  · rename_i something
    have enough : 1 ≤ n := Nat.pos_of_ne_zero something
    have first : [rb.bufferPtr rb.readIndex] = rb.contents.take 1 := by
      rw [holds.contents, Ring.take_row _ _ enough, Ring.row_succ]
      rfl
    split
    · rename_i last
      have taken : Taken rb
          { rb with readMirror := !rb.readMirror, readIndex := ⟨0, rb.positive⟩ } 1 := by
        refine ⟨rfl, rfl, ?_⟩
        rw [Ring.Mark.ahead_past (by rw [place_readMark]; omega) (by omega)]
        exact congrArg₂ Ring.Mark.mk rfl (Fin.ext (by simp; omega))
      obtain ⟨after, rest⟩ := taken.rest holds enough
      exact ⟨⟨_, after⟩, rest, first⟩
    · have taken : Taken rb { rb with readIndex := ⟨rb.readIndex + 1, by omega⟩ } 1 :=
        ⟨rfl, rfl, by rw [Ring.Mark.ahead_inside (by rw [place_readMark]; omega)]; rfl⟩
      obtain ⟨after, rest⟩ := taken.rest holds enough
      exact ⟨⟨_, after⟩, rest, first⟩

/-! ## Putting in -/

/-- `rt_ringbuffer_put` stores as many bytes as there is room for. -/
theorem put_eq (holds : rb.Holds n) (ptr : List UInt8) :
    (∃ k, (rb.rtRingbufferPut ptr).1.Holds k) ∧
      (rb.rtRingbufferPut ptr).1.contents = rb.contents ++ ptr.take (bufferSize - n) ∧
      (rb.rtRingbufferPut ptr).2 = min (bufferSize - n) ptr.length := by
  have within := holds.within
  have space : rb.rtRingbufferSpaceLen = bufferSize - n := holds.spaceLen
  unfold rtRingbufferPut
  split
  · rename_i full
    rw [← space, full]
    exact ⟨⟨n, holds⟩, by rw [List.take_zero, List.append_nil], (Nat.zero_min _).symm⟩
  · obtain ⟨after, behind⟩ := (stored_store (ptr.take rb.rtRingbufferSpaceLen)
      ((List.length_take_le _ _).trans (Nat.sub_le _ _))).behind holds
        (by rw [List.length_take]; omega)
    exact ⟨⟨_, after⟩, by rw [behind, space], congrArg (min · ptr.length) space⟩

theorem putchar_eq (holds : rb.Holds n) (ch : UInt8) :
    (∃ k, (rb.rtRingbufferPutchar ch).1.Holds k) ∧
      (rb.rtRingbufferPutchar ch).1.contents =
        (if n < bufferSize then rb.contents ++ [ch] else rb.contents) ∧
      (rb.rtRingbufferPutchar ch).2 = if n < bufferSize then 1 else 0 := by
  have within := holds.within
  have space : rb.rtRingbufferSpaceLen = bufferSize - n := holds.spaceLen
  unfold rtRingbufferPutchar
  split
  · rw [if_neg (by omega), if_neg (by omega)]
    exact ⟨⟨n, holds⟩, rfl, rfl⟩
  · have room : n + [ch].length ≤ bufferSize := by
      rw [List.length_singleton]
      omega
    obtain ⟨after, behind⟩ := (stored_storeChar ch).behind holds room
    rw [if_pos (by omega), if_pos (by omega)]
    exact ⟨⟨_, after⟩, behind, rfl⟩

/-- A full ring has its two sides apart. -/
theorem Holds.status_eq_full_iff (holds : rb.Holds n) :
    rb.rtRingbufferStatus = .full ↔ n = bufferSize := by
  have some_ := rb.positive
  have count := holds.dataLen
  rw [← count, dataLen_eq, rtRingbufferStatus]
  have read := rb.readIndex.isLt
  have write := rb.writeIndex.isLt
  by_cases place : rb.readIndex = rb.writeIndex
  · by_cases side : rb.readMirror = rb.writeMirror
    · simp [place, side]
      omega
    · simp [place, side]
  · have apart : rb.readIndex.val ≠ rb.writeIndex.val := fun same => place (Fin.ext same)
    rw [if_neg place, if_neg apart]
    refine iff_of_false (by simp) ?_
    split <;> omega

/-- With a full ring the reader and the writer are at the same place on different sides. -/
theorem Holds.sides (holds : rb.Holds bufferSize) : rb.readMirror ≠ rb.writeMirror := by
  have ahead := holds.ahead
  rw [Ring.Mark.ahead_past (Nat.le_add_left _ _) (Nat.le_refl _)] at ahead
  intro same
  exact Bool.not_ne_self _ ((congrArg Ring.Mark.side ahead).symm.trans same.symm)

/-- `rt_ringbuffer_putchar_force` gives the oldest byte up for the new one. -/
theorem putcharForce_eq (holds : rb.Holds n) (ch : UInt8) :
    (∃ k, (rb.rtRingbufferPutcharForce ch).1.Holds k) ∧
      (rb.rtRingbufferPutcharForce ch).1.contents =
        (rb.contents ++ [ch]).drop (n + 1 - bufferSize) ∧
      (rb.rtRingbufferPutcharForce ch).2 = 1 := by
  have within := holds.within
  have stored : Stored rb (rb.storeChar ch) [ch] := stored_storeChar ch
  unfold rtRingbufferPutcharForce
  split
  · rename_i full
    obtain rfl := holds.status_eq_full_iff.mp full
    have some_ := rb.positive
    have apart := holds.sides
    have more : n < n + [ch].length := Nat.lt_succ_self n
    split
    · rename_i last
      have side : (!(rb.storeChar ch).readMirror) ≠ (rb.storeChar ch).writeMirror := by
        rw [storeChar, dif_pos last]
        exact fun same => apart (Bool.not_inj same)
      obtain ⟨after, rest⟩ := stored.instead holds some_ more side
      exact ⟨⟨_, after⟩, rest, rfl⟩
    · rename_i inside
      have side : (rb.storeChar ch).readMirror ≠ (rb.storeChar ch).writeMirror := by
        rw [storeChar, dif_neg inside]
        exact apart
      obtain ⟨after, rest⟩ := stored.instead holds some_ more side
      exact ⟨⟨_, after⟩, rest, rfl⟩
  · rename_i notFull
    have room : n + [ch].length ≤ bufferSize := by
      have less : n ≠ bufferSize := fun all => notFull (holds.status_eq_full_iff.mpr all)
      rw [List.length_singleton]
      omega
    obtain ⟨after, behind⟩ := stored.behind holds room
    rw [List.length_singleton] at room
    exact ⟨⟨_, after⟩, by rw [behind, Nat.sub_eq_zero_of_le room, List.drop_zero], rfl⟩

/-- Old bytes are to be given up while reader and writer are on the same side. -/
def Empties (rb : RtRingbuffer bufferSize) (bytes : List UInt8) : Prop :=
  rb.readMirror = rb.writeMirror ∧ rb.rtRingbufferSpaceLen < bytes.length

instance : Decidable (rb.Empties bytes) := inferInstanceAs (Decidable (_ ∧ _))

/-- On the same side the room reaches past the end of the pool. -/
theorem Holds.space_of_same_side (holds : rb.Holds n) (side : rb.readMirror = rb.writeMirror) :
    bufferSize - rb.writeIndex ≤ bufferSize - n := by
  have ahead := holds.ahead
  rcases Nat.lt_or_ge (rb.readIndex + n) bufferSize with inside | past
  · rw [Ring.Mark.ahead_inside inside] at ahead
    have place : rb.writeIndex.val = rb.readIndex.val + n :=
      congrArg (fun m : Ring.Mark bufferSize => m.place.val) ahead
    omega
  · rw [Ring.Mark.ahead_past past holds.within] at ahead
    exact absurd ((congrArg Ring.Mark.side ahead).symm.trans side.symm) (Bool.not_ne_self _)

/-- `rt_ringbuffer_put_force` gives up old bytes for the new ones. -/
theorem storeForce_eq (holds : rb.Holds n) (fits : bytes.length ≤ bufferSize)
    (keeps : ¬ rb.Empties bytes) :
    (∃ k, (rb.storeForce bytes fits).Holds k) ∧ (rb.storeForce bytes fits).contents =
      (rb.contents ++ bytes).drop (n + bytes.length - bufferSize) := by
  have within := holds.within
  have space : rb.rtRingbufferSpaceLen = bufferSize - n := holds.spaceLen
  have stored : Stored rb (rb.store bytes fits) bytes := stored_store bytes fits
  unfold storeForce
  split
  · rename_i more
    have apart : rb.readMirror ≠ rb.writeMirror := fun same => keeps ⟨same, more⟩
    split
    · rename_i inside
      have side : (rb.store bytes fits).readMirror ≠ (rb.store bytes fits).writeMirror := by
        rw [store, dif_pos inside]
        exact apart
      obtain ⟨after, rest⟩ := stored.instead holds fits (by omega) side
      exact ⟨⟨_, after⟩, rest⟩
    · rename_i outside
      have side : (!(rb.store bytes fits).readMirror) ≠ (rb.store bytes fits).writeMirror := by
        rw [store, dif_neg outside]
        exact fun same => apart (Bool.not_inj same)
      obtain ⟨after, rest⟩ := stored.instead holds fits (by omega) side
      exact ⟨⟨_, after⟩, rest⟩
  · obtain ⟨after, behind⟩ := stored.behind holds (by omega)
    exact ⟨⟨_, after⟩, by rw [behind, Nat.sub_eq_zero_of_le (by omega), List.drop_zero]⟩

/-- It leaves the ring empty when it should not. -/
theorem storeForce_empties (holds : rb.Holds n) (fits : bytes.length ≤ bufferSize)
    (empties : rb.Empties bytes) : (rb.storeForce bytes fits).Holds 0 := by
  have space : rb.rtRingbufferSpaceLen = bufferSize - n := holds.spaceLen
  obtain ⟨same, more⟩ := empties
  have reaches := holds.space_of_same_side same
  have outside : ¬ bytes.length < bufferSize - rb.writeIndex := by omega
  rw [storeForce, if_pos more, if_neg outside]
  refine holds_none rfl ?_
  rw [store, dif_neg outside]
  exact congrArg Bool.not same

/-- The last bytes of all are those of the block that are stored and the last ones before them. -/
theorem drop_lastBytes (q ptr : List UInt8) :
    (q ++ lastBytes bufferSize ptr).drop (q.length + (lastBytes bufferSize ptr).length - bufferSize) =
      (q ++ ptr).drop (q.length + ptr.length - bufferSize) := by
  unfold lastBytes
  split
  · rename_i long
    have front : q.length + (ptr.length - (ptr.length - bufferSize)) - bufferSize = q.length := by
      omega
    have whole : q.length + ptr.length - bufferSize = q.length + (ptr.length - bufferSize) := by
      omega
    rw [List.length_drop, front, whole, List.drop_left, List.drop_length_add_append]
  · rfl

end RtRingbuffer

/-! ## Runs -/

open RtRingbuffer

abbrev RbTransition (bufferSize : ℕ) := Transition (RtRingbuffer bufferSize) RbEvent RbOutput

/-- The ring holds the bytes of the queue. -/
def Keeps (rb : RtRingbuffer bufferSize) (q : List UInt8) : Prop :=
  (∃ n, rb.Holds n) ∧ rb.contents = q

/-- `rt_ringbuffer_put_force` empties the ring. -/
def Flushes (τ : RbTransition bufferSize) : Prop :=
  match τ.event with
  | .putForce ptr => τ.source.Empties (lastBytes bufferSize ptr)
  | _ => False

instance (τ : RbTransition bufferSize) : Decidable (Flushes τ) := by
  unfold Flushes
  split <;> infer_instance

variable {rb last : RtRingbuffer bufferSize} {taken : List (RbTransition bufferSize)}

theorem Keeps.length {q : List UInt8} (keeps : Keeps rb q) : rb.Holds q.length := by
  obtain ⟨⟨n, holds⟩, rfl⟩ := keeps
  rw [holds.contents, Ring.length_row]
  exact holds

/-- **One step.** The queue answers alike. -/
theorem ringbuffer_answers {rb' : RtRingbuffer bufferSize} {e : RbEvent} {o : RbOutput}
    (step : (ringbuffer bufferSize).step rb e = some (rb', o)) (steady : ¬ Flushes ⟨rb, e, o, rb'⟩)
    {q : List UInt8} (keeps : Keeps rb q) :
    ∃ q', (boundedQueue bufferSize).step q e = some (q', o) ∧ Keeps rb' q' := by
  have holds := keeps.length
  obtain ⟨-, rfl⟩ := keeps
  cases e with
  | put ptr =>
      obtain ⟨sound, contents, count⟩ := put_eq holds ptr
      simp only [ringbuffer, Option.some.injEq, Prod.map, Prod.mk.injEq] at step
      obtain ⟨rfl, rfl⟩ := step
      exact ⟨_, by simp [boundedQueue, count], sound, contents⟩
  | putForce ptr =>
      obtain ⟨sound, contents⟩ := storeForce_eq holds
        ((length_lastBytes ptr).trans_le (Nat.min_le_right _ _)) steady
      simp only [ringbuffer, Option.some.injEq, Prod.map, Prod.mk.injEq] at step
      obtain ⟨rfl, rfl⟩ := step
      exact ⟨_, by simp [boundedQueue, rtRingbufferPutForce, length_lastBytes], sound,
        contents.trans (drop_lastBytes _ _)⟩
  | putchar ch =>
      obtain ⟨sound, contents, count⟩ := putchar_eq holds ch
      simp only [ringbuffer, Option.some.injEq, Prod.map, Prod.mk.injEq] at step
      obtain ⟨rfl, rfl⟩ := step
      refine ⟨_, ?_, sound, contents⟩
      simp only [boundedQueue, count]
      split <;> rfl
  | putcharForce ch =>
      obtain ⟨sound, contents, count⟩ := putcharForce_eq holds ch
      simp only [ringbuffer, Option.some.injEq, Prod.map, Prod.mk.injEq] at step
      obtain ⟨rfl, rfl⟩ := step
      exact ⟨_, by simp [boundedQueue, count], sound, contents⟩
  | get length =>
      obtain ⟨sound, contents, bytes⟩ := get_eq holds length
      simp only [ringbuffer, Option.some.injEq, Prod.map, Prod.mk.injEq] at step
      obtain ⟨rfl, rfl⟩ := step
      exact ⟨_, by simp [boundedQueue, bytes], sound, contents⟩
  | getchar =>
      obtain ⟨sound, contents, bytes⟩ := getchar_eq holds
      simp only [ringbuffer, Option.some.injEq, Prod.map, Prod.mk.injEq] at step
      obtain ⟨rfl, rfl⟩ := step
      exact ⟨_, by simp [boundedQueue, bytes], sound, contents⟩
  | reset =>
      cases step
      have empty : rb.rtRingbufferReset.Holds 0 := holds_none rfl rfl
      exact ⟨[], rfl, ⟨0, empty⟩, by rw [empty.contents]; rfl⟩

/-- When the ring is emptied the queue is full. -/
theorem not_matches_of_flushes {τ : RbTransition bufferSize}
    {σ : Transition (List UInt8) RbEvent RbOutput} (takes : (ringbuffer bufferSize).Takes τ)
    (takes' : (boundedQueue bufferSize).Takes σ) (flushes : Flushes τ) :
    ¬ Machine.Matches Keeps τ σ := by
  intro alike
  obtain ⟨rb, e, o, rb'⟩ := τ
  obtain ⟨q, e', o', q'⟩ := σ
  obtain ⟨event, output, source, target⟩ := alike
  dsimp only at event output source target
  subst event
  have holds := source.length
  have some_ := rb.positive
  cases e with
  | putForce ptr =>
      have fits : (lastBytes bufferSize ptr).length ≤ bufferSize :=
        (length_lastBytes ptr).trans_le (Nat.min_le_right _ _)
      have empty : (rb.storeForce (lastBytes bufferSize ptr) fits).Holds 0 :=
        storeForce_empties holds fits flushes
      have more : bufferSize - q.length < (lastBytes bufferSize ptr).length :=
        holds.spaceLen ▸ flushes.2
      rw [length_lastBytes] at more
      obtain rfl : rb.storeForce _ fits = rb' := (Prod.mk.inj (Option.some.inj takes)).1
      obtain rfl : (q ++ ptr).drop (q.length + ptr.length - bufferSize) = q' :=
        (Prod.mk.inj (Option.some.inj takes')).1
      have lengths := target.length.dataLen
      rw [List.length_drop, List.length_append] at lengths
      have nothing := empty.dataLen
      omega
  | _ => exact flushes

/-- **The ring buffer is a queue of bounded length**, exactly while `rt_ringbuffer_put_force` does
not have to give up bytes with reader and writer on the same side. -/
theorem ring_is_queue_iff {pool : Fin bufferSize → UInt8} {some_ : 0 < bufferSize}
    (run : (ringbuffer bufferSize).Run (rtRingbufferInit pool some_) taken last) :
    (∃ taken' last', (boundedQueue bufferSize).Run [] taken' last' ∧
      List.Forall₂ (Machine.Matches Keeps) taken taken') ↔ ∀ τ ∈ taken, ¬ Flushes τ := by
  constructor
  · rintro ⟨taken', last', run', alike⟩ τ member flushes
    obtain ⟨σ, member', here⟩ := Machine.exists_of_matches alike member
    exact not_matches_of_flushes (run.takes τ member) (run'.takes σ member') flushes here
  · intro steady
    have start : Keeps (rtRingbufferInit pool some_) [] :=
      have empty : (rtRingbufferInit pool some_).Holds 0 := holds_none rfl rfl
      ⟨⟨0, empty⟩, by rw [empty.contents]; rfl⟩
    obtain ⟨taken', last', run', alike, -⟩ := run.answered start fun τ member takes q keeps =>
      ringbuffer_answers takes (steady τ member) keeps
    exact ⟨taken', last', run', alike⟩

/-- A full ring of four bytes gives up the two oldest ones; but if only three of its places are
taken, it gives up all of them with the new ones. -/
theorem ring_is_queue_iff_four :
    (∃ taken last, (ringbuffer 4).Run (rtRingbufferInit (fun _ => 0) (by decide)) taken last ∧
      taken.map (·.output) = [.count 4, .count 2, .data [3, 4, 5, 6]] ∧
      ∃ taken' last', (boundedQueue 4).Run [] taken' last' ∧
        List.Forall₂ (Machine.Matches Keeps) taken taken') ∧
    ∃ taken last, (ringbuffer 4).Run (rtRingbufferInit (fun _ => 0) (by decide)) taken last ∧
      taken.map (·.output) = [.count 3, .count 2, .data []] ∧
      ¬ ∃ taken' last', (boundedQueue 4).Run [] taken' last' ∧
        List.Forall₂ (Machine.Matches Keeps) taken taken' := by
  constructor
  · obtain ⟨taken, last, run, passed⟩ := (ringbuffer 4).exists_run_of_passes
      (rtRingbufferInit (fun _ => 0) (by decide)) [.put [1, 2, 3, 4], .putForce [5, 6], .get 9]
      (fun taken _ => decide (taken.map (·.output) = [.count 4, .count 2, .data [3, 4, 5, 6]] ∧
        ∀ τ ∈ taken, ¬ Flushes τ)) (by decide +kernel)
    obtain ⟨outputs, steady⟩ := of_decide_eq_true passed
    exact ⟨taken, last, run, outputs, (ring_is_queue_iff run).mpr steady⟩
  · obtain ⟨taken, last, run, passed⟩ := (ringbuffer 4).exists_run_of_passes
      (rtRingbufferInit (fun _ => 0) (by decide)) [.put [1, 2, 3], .putForce [4, 5], .get 9]
      (fun taken _ => decide (taken.map (·.output) = [.count 3, .count 2, .data []] ∧
        ∃ τ ∈ taken, Flushes τ)) (by decide +kernel)
    obtain ⟨outputs, τ, member, flushes⟩ := of_decide_eq_true passed
    exact ⟨taken, last, run, outputs, fun queue =>
      (ring_is_queue_iff run).mp queue τ member flushes⟩

end WhaleShark.Kernel

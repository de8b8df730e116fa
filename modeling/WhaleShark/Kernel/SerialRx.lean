import WhaleShark.Foundations.Ledgers
import WhaleShark.Foundations.Rings

/-!
# What a serial port has received

The interrupt routine of a serial port stores each byte in a ring of `bufsz` places, and a thread
reads them one by one (`serialRx`). One place stays empty, as equal indices mean that there is
nothing. When the ring is full the oldest byte is given up for the new one.

What was read and what is in the ring is what was received, in order, exactly if no byte comes while
the ring is full (`bytes_are_read_iff`). In any case it is what was received less one byte for each
that came while the ring was full, and what is in the ring is what was received last
(`bytes_are_lost_by_overflow`).
-/

set_option autoImplicit false

namespace WhaleShark.Kernel

open Foundations

variable {bufsz : ℕ}

/-- `struct rt_serial_rx_fifo` -/
structure SerialRxFifo (bufsz : ℕ) where
  buffer : Fin bufsz → UInt8
  putIndex : Fin bufsz
  getIndex : Fin bufsz
  isFull : Bool

namespace SerialRxFifo

variable (f : SerialRxFifo bufsz)

/-- `rt_serial_open` -/
def opened (zero : 0 < bufsz) : SerialRxFifo bufsz where
  buffer := fun _ => 0
  putIndex := ⟨0, zero⟩
  getIndex := ⟨0, zero⟩
  isFull := false

/-- A round of the loop of `rt_hw_serial_isr` -/
def receive (ch : UInt8) : SerialRxFifo bufsz :=
  let putIndex := Ring.next f.putIndex
  if putIndex = f.getIndex then
    { buffer := Function.update f.buffer f.putIndex ch
      putIndex := putIndex
      getIndex := Ring.next f.getIndex
      isFull := true }
  else
    { f with
      buffer := Function.update f.buffer f.putIndex ch
      putIndex := putIndex }

/-- A round of the loop of `_serial_int_rx` -/
def take : Option (UInt8 × SerialRxFifo bufsz) :=
  if f.getIndex = f.putIndex ∧ f.isFull = false then none
  else some (f.buffer f.getIndex, { f with getIndex := Ring.next f.getIndex, isFull := false })

/-- `rx_length` -/
def rxLength : ℕ :=
  if f.getIndex ≤ f.putIndex then f.putIndex - f.getIndex
  else bufsz - (f.getIndex - f.putIndex)

/-- What is in the ring, the oldest byte first. -/
def contents : List UInt8 := Ring.row f.buffer f.getIndex f.rxLength

/-- The ring is never marked full with equal indices, which would read as a whole round of bytes. -/
def Marks : Prop := f.isFull = true → f.getIndex ≠ f.putIndex

@[simp] theorem length_contents : f.contents.length = f.rxLength :=
  Ring.length_row _ _ _

theorem rxLength_lt : f.rxLength < bufsz := by
  have put := f.putIndex.isLt
  have get := f.getIndex.isLt
  unfold rxLength
  simp only [Fin.le_def]
  split <;> omega

theorem putIndex_eq : f.putIndex = Ring.ahead f.getIndex f.rxLength := by
  have put := f.putIndex.isLt
  have get := f.getIndex.isLt
  refine Fin.ext ?_
  unfold rxLength Ring.ahead
  simp only [Fin.le_def]
  split
  · rename_i behind
    rw [Nat.add_sub_cancel' behind, Nat.mod_eq_of_lt put]
  · rename_i before
    rw [show f.getIndex.val + (bufsz - (f.getIndex - f.putIndex)) = f.putIndex + bufsz by omega,
      Nat.add_mod_right, Nat.mod_eq_of_lt put]

/-- The number of bytes is told by the two indices. -/
theorem rxLength_eq {n : ℕ} (bound : n < bufsz) (put : f.putIndex = Ring.ahead f.getIndex n) :
    f.rxLength = n :=
  Ring.ahead_inj f.rxLength_lt bound (f.putIndex_eq.symm.trans put)

variable {f}

/-- Equal indices mean that there is nothing. -/
theorem getIndex_eq_putIndex_iff : f.getIndex = f.putIndex ↔ f.rxLength = 0 := by
  rw [f.putIndex_eq, eq_comm, Ring.ahead_eq_self_iff (Nat.le_of_lt f.rxLength_lt)]
  have bound := f.rxLength_lt
  omega

/-- The next place to write is the next one to read exactly if one place is left. -/
theorem next_putIndex_eq_iff : Ring.next f.putIndex = f.getIndex ↔ f.rxLength + 1 = bufsz := by
  have bound := f.rxLength_lt
  rw [f.putIndex_eq, Ring.next_ahead, Ring.ahead_eq_self_iff bound]
  omega

/-! ## One step -/

/-- A byte comes behind the others while there is room. -/
theorem contents_receive {ch : UInt8} (room : f.rxLength + 1 < bufsz) :
    (f.receive ch).contents = f.contents ++ [ch] := by
  have apart : Ring.next f.putIndex ≠ f.getIndex := fun same => by
    have := next_putIndex_eq_iff.mp same
    omega
  have put : Ring.next f.putIndex = Ring.ahead f.getIndex (f.rxLength + 1) := by
    rw [f.putIndex_eq, Ring.next_ahead]
  have length : (f.receive ch).rxLength = f.rxLength + 1 := by
    refine rxLength_eq _ room ?_
    simp only [receive, if_neg apart]
    exact put
  rw [contents, length]
  simp only [receive, if_neg apart]
  have pushed := Ring.row_push f.buffer f.getIndex f.rxLength_lt ch
  rw [← f.putIndex_eq] at pushed
  exact pushed

/-- With a full ring it takes the place of the oldest one. -/
theorem contents_receive_full {ch : UInt8} (full : f.rxLength + 1 = bufsz) :
    (f.receive ch).contents = (f.contents ++ [ch]).tail := by
  have meets : Ring.next f.putIndex = f.getIndex := next_putIndex_eq_iff.mpr full
  have bound := f.rxLength_lt
  have length : (f.receive ch).rxLength = f.rxLength := by
    refine rxLength_eq _ bound ?_
    simp only [receive, if_pos meets]
    rw [Ring.ahead_next, ← Ring.next_ahead, ← f.putIndex_eq]
  rw [contents, length]
  simp only [receive, if_pos meets]
  have pushed := Ring.row_push f.buffer f.getIndex bound ch
  rw [← f.putIndex_eq, Ring.row_succ] at pushed
  rw [contents, ← pushed, List.tail_cons]

theorem marks_receive (two : 2 ≤ bufsz) (ch : UInt8) : (f.receive ch).Marks := by
  by_cases meets : Ring.next f.putIndex = f.getIndex
  · simp only [receive, if_pos meets, Marks]
    intro _ same
    rw [meets, Ring.next_eq_ahead, Ring.ahead_eq_self_iff (by omega)] at same
    omega
  · simp only [receive, if_neg meets, Marks]
    exact fun _ same => meets same.symm

/-- What is taken is the oldest byte. -/
theorem take_eq_some {ch : UInt8} {f' : SerialRxFifo bufsz} (taken : f.take = some (ch, f'))
    (marks : f.Marks) : f.contents = ch :: f'.contents ∧ f'.Marks := by
  obtain ⟨something, same⟩ := Option.ite_none_left_eq_some.mp taken
  cases same
  have nonempty : f.rxLength ≠ 0 := fun zero => by
    have meets := getIndex_eq_putIndex_iff.mpr zero
    have notFull : f.isFull = false := Bool.eq_false_iff.mpr fun full => marks full meets
    exact something ⟨meets, notFull⟩
  obtain ⟨n, count⟩ := Nat.exists_eq_succ_of_ne_zero nonempty
  have bound := f.rxLength_lt
  have length : ({ f with getIndex := Ring.next f.getIndex, isFull := false } :
      SerialRxFifo bufsz).rxLength = n := by
    refine rxLength_eq _ (by omega) ?_
    change f.putIndex = _
    rw [Ring.ahead_next, f.putIndex_eq, count]
  refine ⟨?_, fun full => by cases full⟩
  rw [contents, contents, length, count, Ring.row_succ]

/-- Nothing is taken exactly if there is nothing. -/
theorem take_eq_none_iff (marks : f.Marks) : f.take = none ↔ f.contents = [] := by
  rw [← List.length_eq_zero_iff, length_contents, ← getIndex_eq_putIndex_iff]
  unfold take
  constructor
  · intro nothing
    by_contra apart
    rw [if_neg fun both => apart both.1] at nothing
    cases nothing
  · intro meets
    have notFull : f.isFull = false := Bool.eq_false_iff.mpr fun full => marks full meets
    rw [if_pos ⟨meets, notFull⟩]

end SerialRxFifo

/-! ## The port -/

inductive RxEvent where
  /-- the interrupt routine stores a byte -/
  | receive (ch : UInt8)
  /-- a thread looks for one -/
  | read
  deriving DecidableEq

inductive RxOutput where
  | nothing
  | byte (ch : UInt8)
  /-- there is no data -/
  | empty
  deriving DecidableEq

/-- The interrupt routine and the threads that read. -/
def serialRx (bufsz : ℕ) : Machine (SerialRxFifo bufsz) RxEvent RxOutput where
  step f
    | .receive ch => some (f.receive ch, .nothing)
    | .read =>
        match f.take with
        | none => some (f, .empty)
        | some (ch, f') => some (f', .byte ch)

abbrev RxTransition (bufsz : ℕ) := Transition (SerialRxFifo bufsz) RxEvent RxOutput

/-- A byte comes. -/
def receivedByte (τ : RxTransition bufsz) : Option UInt8 :=
  match τ.event with
  | .receive ch => some ch
  | .read => none

/-- A byte is read. -/
def readByte (τ : RxTransition bufsz) : Option UInt8 :=
  match τ.output with
  | .byte ch => some ch
  | _ => none

/-- The bytes: they come, and are read. -/
def rxBytes (bufsz : ℕ) : Machine.Ledger (SerialRxFifo bufsz) RxEvent RxOutput UInt8 where
  enters := receivedByte
  leaves := readByte
  inside := SerialRxFifo.contents

/-- A byte comes while the ring is full. -/
def Overflows (τ : RxTransition bufsz) : Prop :=
  (receivedByte τ).isSome ∧ τ.source.rxLength + 1 = bufsz

instance (τ : RxTransition bufsz) : Decidable (Overflows τ) := inferInstanceAs (Decidable (_ ∧ _))

/-- The steps: a byte comes, is read, or there is none. -/
inductive RxStep (f : SerialRxFifo bufsz) : RxEvent → SerialRxFifo bufsz → RxOutput → Prop where
  | receive {ch : UInt8} : RxStep f (.receive ch) (f.receive ch) .nothing
  | byte {ch : UInt8} {f' : SerialRxFifo bufsz} (taken : f.take = some (ch, f')) :
      RxStep f .read f' (.byte ch)
  | empty (nothing : f.take = none) : RxStep f .read f .empty

theorem serialRx_cases {f f' : SerialRxFifo bufsz} {e : RxEvent} {o : RxOutput}
    (step : (serialRx bufsz).step f e = some (f', o)) : RxStep f e f' o := by
  cases e with
  | receive ch =>
      cases step
      exact .receive
  | read =>
      simp only [serialRx] at step
      split at step
      · rename_i nothing
        cases step
        exact .empty nothing
      · rename_i taken
        cases step
        exact .byte taken

theorem marks_of_step {τ : RxTransition bufsz} (two : 2 ≤ bufsz) (takes : (serialRx bufsz).Takes τ)
    (marks : τ.source.Marks) : τ.target.Marks := by
  obtain ⟨f, e, o, f'⟩ := τ
  have step : RxStep f e f' o := serialRx_cases takes
  cases step with
  | receive => exact SerialRxFifo.marks_receive two _
  | byte taken => exact (SerialRxFifo.take_eq_some taken marks).2
  | empty => exact marks

/-- **One step.** No byte is lost exactly if none comes while the ring is full. -/
theorem rx_balanced_iff {τ : RxTransition bufsz} (takes : (serialRx bufsz).Takes τ)
    (marks : τ.source.Marks) : (rxBytes bufsz).Balanced τ ↔ ¬ Overflows τ := by
  obtain ⟨f, e, o, f'⟩ := τ
  have step : RxStep f e f' o := serialRx_cases takes
  cases step with
  | @receive ch =>
      refine (Machine.Ledger.balanced_of_enters (L := rxBytes bufsz) rfl rfl).trans ?_
      change (f.receive ch).contents = f.contents ++ [ch] ↔ _
      have bound := f.rxLength_lt
      by_cases full : f.rxLength + 1 = bufsz
      · refine iff_of_false (fun same => ?_) (not_not_intro ⟨rfl, full⟩)
        have lengths := congrArg List.length same
        simp [SerialRxFifo.contents_receive_full full] at lengths
      · exact iff_of_true (SerialRxFifo.contents_receive (by omega)) fun over_ => full over_.2
  | byte taken =>
      exact iff_of_true ((Machine.Ledger.balanced_of_leaves (L := rxBytes bufsz) rfl rfl).mpr
        (SerialRxFifo.take_eq_some taken marks).1) fun over_ => by simpa [receivedByte] using over_.1
  | empty nothing =>
      exact iff_of_true ((Machine.Ledger.balanced_of_same (L := rxBytes bufsz) rfl rfl).mpr rfl)
        fun over_ => by simpa [receivedByte] using over_.1

/-! ## Whole runs -/

variable {f last : SerialRxFifo bufsz} {taken : List (RxTransition bufsz)}

theorem marks_opened (zero : 0 < bufsz) : (SerialRxFifo.opened zero).Marks :=
  fun full => by cases full

theorem contents_opened (zero : 0 < bufsz) : (SerialRxFifo.opened zero).contents = [] := by
  rw [← List.length_eq_zero_iff, SerialRxFifo.length_contents,
    ← SerialRxFifo.getIndex_eq_putIndex_iff]
  rfl

/-- **Every byte is read, once and in order, exactly while none comes with the ring full.** -/
theorem bytes_are_read_iff (two : 2 ≤ bufsz) (zero : 0 < bufsz)
    (run : (serialRx bufsz).Run (.opened zero) taken last) :
    Machine.Throughout (rxBytes bufsz).Exact taken last ↔ ∀ τ ∈ taken, ¬ Overflows τ :=
  run.ledger_iff (rxBytes bufsz) SerialRxFifo.Marks (¬ Overflows ·) (contents_opened zero)
    (marks_opened zero) (fun _ takes marks => rx_balanced_iff takes marks)
    (fun _ takes marks _ => marks_of_step two takes marks)

/-- A ring of four places holds three bytes. -/
theorem bytes_are_read_iff_three : ∃ taken last,
    (serialRx 4).Run (.opened (by decide)) taken last ∧
      taken.filterMap readByte = [7, 8, 9, 10] ∧
      Machine.Throughout (rxBytes 4).Exact taken last := by
  obtain ⟨taken, last, run, passed⟩ := (serialRx 4).exists_run_of_passes
    (.opened (by decide))
    [.receive 7, .receive 8, .receive 9, .read, .receive 10, .read, .read, .read, .read]
    (fun taken _ => decide (taken.filterMap readByte = [7, 8, 9, 10] ∧
      ∀ τ ∈ taken, ¬ Overflows τ)) (by decide +kernel)
  obtain ⟨bytes, room⟩ := of_decide_eq_true passed
  exact ⟨taken, last, run, bytes, (bytes_are_read_iff (by decide) (by decide) run).mpr room⟩

/-- What was read, and what is in the ring: what was received without so many bytes that were given
up. -/
structure Lossy (received read inside : List UInt8) (lost : ℕ) : Prop where
  inOrder : (read ++ inside).Sublist received
  newest : inside <:+ received
  count : received.length = read.length + inside.length + lost

namespace Lossy

variable {received read inside : List UInt8} {lost : ℕ}

/-- A byte comes behind the others. -/
theorem push (lossy : Lossy received read inside lost) (ch : UInt8) :
    Lossy (received ++ [ch]) read (inside ++ [ch]) lost where
  inOrder := by
    rw [← List.append_assoc]
    exact lossy.inOrder.append (.refl [ch])
  newest := by
    obtain ⟨older, rfl⟩ := lossy.newest
    exact ⟨older, (List.append_assoc ..).symm⟩
  count := by
    have count := lossy.count
    simp only [List.length_append, List.length_singleton]
    omega

/-- It takes the place of the oldest one. -/
theorem pushOver (lossy : Lossy received read inside lost) (ch : UInt8) :
    Lossy (received ++ [ch]) read (inside ++ [ch]).tail (lost + 1) where
  inOrder := ((List.Sublist.refl read).append (List.tail_sublist _)).trans (lossy.push ch).inOrder
  newest := (List.tail_suffix _).trans (lossy.push ch).newest
  count := by
    have count := (lossy.push ch).count
    simp only [List.length_append, List.length_singleton, List.length_tail] at count ⊢
    omega

/-- The oldest byte is read. -/
theorem pop {ch : UInt8} (lossy : Lossy received read (ch :: inside) lost) :
    Lossy received (read ++ [ch]) inside lost where
  inOrder := by
    rw [List.append_assoc]
    exact lossy.inOrder
  newest := (List.suffix_cons ch inside).trans lossy.newest
  count := by
    have count := lossy.count
    simp only [List.length_append, List.length_cons, List.length_nil] at count ⊢
    omega

end Lossy

/-- How many bytes came while the ring was full. -/
def overflows (past : List (RxTransition bufsz)) : ℕ := past.countP (Overflows ·)

theorem overflows_snoc (past : List (RxTransition bufsz)) (τ : RxTransition bufsz) :
    overflows (past ++ [τ]) = overflows past + if Overflows τ then 1 else 0 := by
  rw [overflows, List.countP_append, List.countP_singleton]
  simp [overflows]

/-- The bytes of the transitions so far, and those in the ring. -/
def LossyAt (past : List (RxTransition bufsz)) (f : SerialRxFifo bufsz) : Prop :=
  Lossy (past.filterMap receivedByte) (past.filterMap readByte) f.contents (overflows past) ∧ f.Marks

theorem lossy_of_step {past : List (RxTransition bufsz)} {τ : RxTransition bufsz} (two : 2 ≤ bufsz)
    (takes : (serialRx bufsz).Takes τ) (before : LossyAt past τ.source) :
    LossyAt (past ++ [τ]) τ.target := by
  obtain ⟨lossy, marks⟩ := before
  refine ⟨?_, marks_of_step two takes marks⟩
  rw [List.filterMap_append, List.filterMap_append, overflows_snoc,
    Machine.Ledger.filterMap_singleton_toList, Machine.Ledger.filterMap_singleton_toList]
  obtain ⟨f, e, o, f'⟩ := τ
  have step : RxStep f e f' o := serialRx_cases takes
  cases step with
  | @receive ch =>
      have bound := f.rxLength_lt
      change Lossy (_ ++ [ch]) (_ ++ []) (f.receive ch).contents _
      rw [List.append_nil]
      by_cases full : f.rxLength + 1 = bufsz
      · rw [SerialRxFifo.contents_receive_full full, if_pos ⟨rfl, full⟩]
        exact lossy.pushOver ch
      · rw [SerialRxFifo.contents_receive (by omega), if_neg fun both => full both.2]
        exact lossy.push ch
  | @byte ch f' taken =>
      have quiet : ¬ Overflows (⟨f, .read, .byte ch, f'⟩ : RxTransition bufsz) :=
        fun both => by simpa [receivedByte] using both.1
      change Lossy (_ ++ []) (_ ++ [ch]) f'.contents _
      rw [List.append_nil, if_neg quiet, Nat.add_zero]
      have contents := (SerialRxFifo.take_eq_some taken marks).1
      change Lossy _ _ f.contents _ at lossy
      rw [contents] at lossy
      exact lossy.pop
  | empty nothing =>
      have quiet : ¬ Overflows (⟨f, .read, .empty, f⟩ : RxTransition bufsz) :=
        fun both => by simpa [receivedByte] using both.1
      change Lossy (_ ++ []) (_ ++ []) f.contents _
      rw [List.append_nil, List.append_nil, if_neg quiet, Nat.add_zero]
      exact lossy

/-- **What an overflow costs.** At every point of a run, what was read and what is in the ring is
what was received, in order, less one byte for each that came while the ring was full; and what is
in the ring is what was received last. -/
theorem bytes_are_lost_by_overflow (two : 2 ≤ bufsz) (zero : 0 < bufsz)
    (run : (serialRx bufsz).Run (.opened zero) taken last) :
    Machine.Throughout (fun past f =>
      Lossy (past.filterMap receivedByte) (past.filterMap readByte) f.contents (overflows past))
      taken last := by
  have all := run.invariant LossyAt
    ⟨by rw [contents_opened]; exact ⟨.slnil, List.nil_suffix, rfl⟩, marks_opened zero⟩
    (fun past τ takes before => lossy_of_step two takes before)
  exact ⟨all.1.1, fun past τ rest split => (all.2 past τ rest split).1⟩

/-- A fourth byte takes the place of the first one. -/
theorem bytes_are_lost_by_overflow_once : ∃ taken last,
    (serialRx 4).Run (.opened (by decide)) taken last ∧
      taken.filterMap readByte = [8, 9, 10] ∧ overflows taken = 1 ∧
      Lossy (taken.filterMap receivedByte) (taken.filterMap readByte) last.contents
        (overflows taken) := by
  obtain ⟨taken, last, run, passed⟩ := (serialRx 4).exists_run_of_passes
    (.opened (by decide))
    [.receive 7, .receive 8, .receive 9, .receive 10, .read, .read, .read, .read]
    (fun taken _ => decide (taken.filterMap readByte = [8, 9, 10] ∧ overflows taken = 1))
    (by decide +kernel)
  obtain ⟨bytes, once⟩ := of_decide_eq_true passed
  exact ⟨taken, last, run, bytes, once,
    (bytes_are_lost_by_overflow (by decide) (by decide) run).1⟩

end WhaleShark.Kernel

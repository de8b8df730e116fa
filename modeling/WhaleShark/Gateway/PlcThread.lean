import WhaleShark.Foundations.Runs
import WhaleShark.Gateway.PlcPacket

/-!
# The thread that receives PLC frames

`plccomm_rx_thread` sleeps on an event object with two flags. When bytes have arrived and it is
the turn of the first sensor, it reads everything the UART holds, chunk after chunk, and has
`ParserReceiveData` look at the buffer after each; when a frame was found, the packet of the
first sensor is made. The packets of the other sensors of the same frame are made one by one,
each at an `SMSG_INC_DATA`.

A step of the machine `plcThread` is one turn of the thread's loop, or a call of `SetTcpStatus`
by another thread. Its output says what `MakeSensorPayloadData` was given and what went to
`SendData`. The reads of a step are what `rt_device_read` returned, so they say how the received
bytes were cut into chunks. What a step can do is listed once (`plccommRx_cases`).

The reads of one turn amount to one search through what was held and everything read
(`readAll_eq`), whatever the chunks.
-/

set_option autoImplicit false

namespace WhaleShark.Plc

open Foundations

/-- What the thread keeps between events. -/
structure PlcThread where
  info : PlcCommInfo
  findStart : FunctionalState
  sensorCodeCount : UInt16
  uRemain : ℕ
  deriving DecidableEq

/-- An event, and a call of another thread. -/
inductive PlcEvent where
  /-- `rt_event_recv` returned these of `SMSG_RX_DATA` and `SMSG_INC_DATA`, and the following
  calls of `rt_device_read` these bytes. -/
  | received (rx inc : Bool) (reads : List (List UInt8))
  | setTcpStatus (tcpOn : FunctionalState)

/-- One packetising: the memory at `pData` when `MakeSensorPayloadData` was called, the sensor
whose turn it was, and what was passed to `SendData`. -/
structure Packetised where
  pData : List UInt8
  sensorCodeCount : UInt16
  sent : Option (List UInt8)
  deriving DecidableEq

/-! ## The loop of `plccomm_rx_thread` -/

/-- A chunk has been read into the buffer, behind the `uRemain` bytes it holds. -/
def readChunk (t : PlcThread) (chunk : List UInt8) : PlcThread :=
  let rxBuf := t.info.rxBuf.write t.uRemain chunk
  let uRemain := t.uRemain + chunk.length
  let scan := parserReceiveData (rxBuf.read 0 uRemain) t.findStart t.info.valid
  let consumed := scan.begin_
  { t with
    info := { t.info with
      valid := scan.valid
      rxBuf :=
        if 0 < consumed ∧ 0 < uRemain - consumed then rxBuf.moveDown consumed (uRemain - consumed)
        else rxBuf }
    findStart := scan.findStart
    uRemain := uRemain - consumed }

/-- The reads until one returns nothing. Each returns at most what fits behind `uRemain`. -/
def readAll : PlcThread → List (List UInt8) → Option PlcThread
  | t, [] => some t
  | t, chunk :: chunks =>
      if chunk ≠ [] ∧ chunk.length ≤ plcBuffSize - t.uRemain then readAll (readChunk t chunk) chunks
      else none

/-- `sensorCodeCount` after a packet. -/
def nextSensorCode (devType : DevType) (sensorCodeCount : UInt16) : UInt16 :=
  if devType = .ts ∧ 11 < sensorCodeCount + 1 then 1
  else if devType = .tk ∧ 19 < sensorCodeCount + 1 then 1
  else sensorCodeCount + 1

/-- The branch for `indFlag`. The length goes through a byte. -/
def packetise (t : PlcThread) : PlcThread × Packetised :=
  let made := makeSensorPayloadData t.info t.sensorCodeCount t.info.rxBuf.cells
  let len : UInt8 := made.2.toUInt8
  let next := nextSensorCode t.info.devType t.sensorCodeCount
  ({ t with
      info := { made.1 with
        txBuf := if 0 < len then .fill plcBuffSize 0 else made.1.txBuf
        rxBuf := if next = 1 then .fill plcBuffSize 0 else made.1.rxBuf }
      sensorCodeCount := next },
    { pData := t.info.rxBuf.cells
      sensorCodeCount := t.sensorCodeCount
      sent := if 0 < len then some (made.1.txBuf.read 0 len.toNat) else none })

/-- The buffer is emptied when it is full. -/
def makeRoom (t : PlcThread) : PlcThread :=
  if plcBuffSize ≤ t.uRemain then { t with uRemain := 0 } else t

/-- One turn of the loop. -/
def plccommRx (t : PlcThread) (rx inc : Bool) (reads : List (List UInt8)) :
    Option (PlcThread × Option Packetised) :=
  if (rx || inc) = false then none
  else if t.info.tcpOn = enable ∧ rx = true ∧ t.sensorCodeCount = 1 then
    match readAll (makeRoom t) reads with
    | none => none
    | some t =>
        if t.info.valid = enable then
          let t := { t with info := { t.info with valid := disable } }
          some ((packetise t).1, some (packetise t).2)
        else some (t, none)
  else if reads ≠ [] then none
  else if t.info.tcpOn = enable ∧ inc = true ∧ 1 < t.sensorCodeCount then
    some ((packetise t).1, some (packetise t).2)
  else some (t, none)

/-- `SetTcpStatus` -/
def setTcpStatus (t : PlcThread) (tcpOn : FunctionalState) : PlcThread :=
  { t with info := { t.info with tcpOn := tcpOn } }

/-- The thread among the calls of `SetTcpStatus`. -/
def plcThread : Machine PlcThread PlcEvent (Option Packetised) where
  step t
    | .received rx inc reads => plccommRx t rx inc reads
    | .setTcpStatus tcpOn => some (setTcpStatus t tcpOn, none)

/-- The bytes an event reads. -/
def PlcEvent.bytes : PlcEvent → List UInt8
  | .received _ _ reads => reads.flatten
  | .setTcpStatus _ => []

/-- The bytes received over a run. -/
def received (taken : List (Transition PlcThread PlcEvent (Option Packetised))) : List UInt8 :=
  taken.flatMap fun τ => τ.event.bytes

/-- The state in which the thread starts to serve a connection. -/
structure Initial (t : PlcThread) : Prop where
  findStart : t.findStart = disable
  first : t.sensorCodeCount = 1
  empty : t.uRemain = 0
  valid : t.info.valid = disable
  connected : t.info.tcpOn = enable

/-! ## What a turn can do -/

/-- The steps: nothing to do, a search without and with a frame, the next sensor of the frame at
hand, and the call of another thread. -/
inductive Turn (t : PlcThread) : PlcEvent → PlcThread → Option Packetised → Prop where
  | idle {rx inc : Bool} (noFrame : ¬ (t.info.tcpOn = enable ∧ rx = true ∧ t.sensorCodeCount = 1))
      (noSensor : ¬ (t.info.tcpOn = enable ∧ inc = true ∧ 1 < t.sensorCodeCount)) :
      Turn t (.received rx inc []) t none
  | searching {inc : Bool} {reads : List (List UInt8)} {t' : PlcThread}
      (connected : t.info.tcpOn = enable) (turn : t.sensorCodeCount = 1)
      (read : readAll (makeRoom t) reads = some t') (quiet : t'.info.valid = disable) :
      Turn t (.received true inc reads) t' none
  | found {inc : Bool} {reads : List (List UInt8)} {t' : PlcThread}
      (connected : t.info.tcpOn = enable) (turn : t.sensorCodeCount = 1)
      (read : readAll (makeRoom t) reads = some t') (valid : t'.info.valid = enable) :
      Turn t (.received true inc reads)
        (packetise { t' with info := { t'.info with valid := disable } }).1
        (some (packetise { t' with info := { t'.info with valid := disable } }).2)
  | next {rx : Bool} (connected : t.info.tcpOn = enable) (turn : 1 < t.sensorCodeCount) :
      Turn t (.received rx true []) (packetise t).1 (some (packetise t).2)
  | setTcpStatus {tcpOn : FunctionalState} :
      Turn t (.setTcpStatus tcpOn) (setTcpStatus t tcpOn) none

theorem plccommRx_cases {t t' : PlcThread} {rx inc : Bool} {reads : List (List UInt8)}
    {made : Option Packetised} (step : plccommRx t rx inc reads = some (t', made)) :
    Turn t (.received rx inc reads) t' made := by
  unfold plccommRx at step
  split at step
  · cases step
  · split at step
    · rename_i active
      obtain ⟨connected, rfl, turn⟩ := active
      cases read : readAll (makeRoom t) reads with
      | none => simp [read] at step
      | some after =>
          simp only [read] at step
          split at step
          · rename_i valid
            cases step
            exact .found connected turn read valid
          · rename_i quiet
            cases step
            exact .searching connected turn read (Bool.eq_false_iff.mpr quiet)
    · rename_i noFrame
      split at step
      · cases step
      · rename_i unread
        obtain rfl : reads = [] := not_not.mp unread
        split at step
        · rename_i active
          obtain ⟨connected, rfl, turn⟩ := active
          cases step
          exact .next connected turn
        · rename_i noSensor
          cases step
          exact .idle noFrame noSensor

/-- Every step of the machine is one of these. -/
theorem plcThread_cases {t t' : PlcThread} {e : PlcEvent} {made : Option Packetised}
    (step : plcThread.step t e = some (t', made)) : Turn t e t' made := by
  cases e with
  | received rx inc reads => exact plccommRx_cases step
  | setTcpStatus tcpOn =>
      cases step
      exact .setTcpStatus

/-- Reading leaves the turn and the device as they are. -/
structure KeepsDevice (t t' : PlcThread) : Prop where
  sensorCodeCount : t'.sensorCodeCount = t.sensorCodeCount
  devType : t'.info.devType = t.info.devType
  devInfo : t'.info.devInfo = t.info.devInfo
  tcpOn : t'.info.tcpOn = t.info.tcpOn

theorem KeepsDevice.trans {t t' t'' : PlcThread} (one : KeepsDevice t t')
    (two : KeepsDevice t' t'') : KeepsDevice t t'' :=
  ⟨two.sensorCodeCount.trans one.sensorCodeCount, two.devType.trans one.devType,
    two.devInfo.trans one.devInfo, two.tcpOn.trans one.tcpOn⟩

theorem makeRoom_keeps (t : PlcThread) : KeepsDevice t (makeRoom t) := by
  unfold makeRoom
  split <;> exact ⟨rfl, rfl, rfl, rfl⟩

/-- **The rule of the reads**: what each read keeps, the reads of a turn keep. -/
theorem readAll_invariant {Inv : PlcThread → Prop}
    (step : ∀ t chunk, chunk ≠ [] → chunk.length ≤ plcBuffSize - t.uRemain → Inv t →
      Inv (readChunk t chunk))
    {reads : List (List UInt8)} {t t' : PlcThread} (before : Inv t)
    (read : readAll t reads = some t') : Inv t' := by
  induction reads generalizing t with
  | nil =>
      cases read
      exact before
  | cons chunk chunks ih =>
      rw [readAll] at read
      split at read
      · rename_i admitted
        exact ih (step t chunk admitted.1 admitted.2 before) read
      · cases read

theorem readAll_keeps {reads : List (List UInt8)} {t t' : PlcThread}
    (read : readAll t reads = some t') : KeepsDevice t t' := by
  refine readAll_invariant (fun _ _ _ _ kept => kept.trans ?_) ⟨rfl, rfl, rfl, rfl⟩ read
  exact ⟨rfl, rfl, rfl, rfl⟩

theorem reads_keep {t t' : PlcThread} {reads : List (List UInt8)}
    (read : readAll (makeRoom t) reads = some t') : KeepsDevice t t' :=
  (makeRoom_keeps t).trans (readAll_keeps read)

/-! ## What packetising changes -/

/-- The bytes that go to `SendData`: as many of the payload as its length in one byte says. -/
def sentAt (devInfo : Block UInt8 4) (devType : DevType) (sensorCodeCount : UInt16)
    (pData : List UInt8) : Option (List UInt8) :=
  let made := payload devInfo devType sensorCodeCount pData
  let len : UInt8 := made.length.toUInt8
  if 0 < len then some (made.take len.toNat) else none

/-- A payload fits into the transmit buffer. -/
theorem length_payload_le (devInfo : Block UInt8 4) (devType : DevType)
    (sensorCodeCount : UInt16) (pData : List UInt8) :
    (payload devInfo devType sensorCodeCount pData).length ≤ plcBuffSize := by
  have common := List.countP_le_length (p := fun f : Field => f.1 == sensorCodeCount)
    (l := commonFields)
  have six : commonFields.length = 6 := rfl
  rw [payload, List.length_append, length_packetsOf]
  split
  · have own := List.countP_le_length (p := fun f : Field => f.1 == sensorCodeCount) (l := tsFields)
    have five : tsFields.length = 5 := rfl
    rw [length_packetsOf]
    simp only [packetLen, plcBuffSize]
    omega
  · have thirteen : tkFields.countP (fun _ => true) = 13 := rfl
    rw [length_packetsOf, thirteen]
    simp only [packetLen, plcBuffSize]
    omega

theorem packetise_output (t : PlcThread) :
    (packetise t).2 = ⟨t.info.rxBuf.cells, t.sensorCodeCount,
      sentAt t.info.devInfo t.info.devType t.sensorCodeCount t.info.rxBuf.cells⟩ := by
  have fits := length_payload_le t.info.devInfo t.info.devType t.sensorCodeCount
    t.info.rxBuf.cells
  simp only [packetise, makeSensorPayloadData_eq, sentAt]
  generalize payload t.info.devInfo t.info.devType t.sensorCodeCount t.info.rxBuf.cells = made
    at fits
  have written := Block.read_write_self t.info.txBuf 0 made ((Nat.zero_add _).le.trans fits)
  have cut : made.length.toUInt8.toNat ≤ made.length := by
    simpa using Nat.mod_le made.length 256
  rw [← Block.take_read _ _ _ _ cut, written]

theorem sensorCodeCount_packetise (t : PlcThread) :
    (packetise t).1.sensorCodeCount = nextSensorCode t.info.devType t.sensorCodeCount := rfl

theorem packetise_keeps (t : PlcThread) :
    ((packetise t).1.info.devType = t.info.devType ∧ (packetise t).1.info.devInfo = t.info.devInfo ∧
        (packetise t).1.info.tcpOn = t.info.tcpOn) ∧
      (packetise t).1.info.valid = t.info.valid ∧
      (packetise t).1.info.rxBuf =
        if (packetise t).1.sensorCodeCount = 1 then .fill plcBuffSize 0 else t.info.rxBuf := by
  rw [sensorCodeCount_packetise]
  simp only [packetise, makeSensorPayloadData_eq, and_self]

/-! ## One turn is one search -/

/-- What the buffer holds. -/
def PlcThread.held (t : PlcThread) : List UInt8 := t.info.rxBuf.read 0 t.uRemain

/-- The buffer holds what a search has kept, and the search can go on. -/
structure Searching (t : PlcThread) : Prop where
  fits : t.uRemain ≤ plcBuffSize
  kept : keepFrame t.held = t.held
  flag : t.findStart = decide (frameStarts t.held ≠ [] ∧ t.held.length ≤ plcDataLen)

/-- The search for frames, as a scanner. -/
abbrev frameScanner : Scanner UInt8 Bool := pieceScanner isStx (plcDataLen + 1) sumHolds

theorem frameScanner_resumes : frameScanner.Resumes := pieceScanner_resumes (by decide) sumHolds

theorem keepFrame_keepFrame (d : List UInt8) : keepFrame (keepFrame d) = keepFrame d := by
  have again := frameScanner_resumes.keep_append d []
  rwa [List.append_nil, List.append_nil] at again

theorem frameFound_of_keepFrame {d : List UInt8} (quiet : frameFound d = false) :
    frameFound (keepFrame d) = false := by
  have again : frameFound (d ++ []) = (frameFound d || frameFound (keepFrame d ++ [])) :=
    frameScanner_resumes.report_append d []
  rw [List.append_nil, List.append_nil, quiet, Bool.false_or] at again
  exact again.symm

/-- What is kept begins with `STX` once a frame has begun. -/
theorem keepFrame_starts {d : List UInt8} (begun : frameStarts d ≠ []) :
    byteAt (keepFrame d) 0 = stx := by
  obtain ⟨-, -, -, -, ⟨a, rest, kept, mark⟩, -⟩ := pieceStarts_resume (by decide) d begun
  have same : keepFrame d = a :: rest := kept
  rw [same]
  simpa [isStx, byteAt_eq] using mark

theorem frameStarts_keepFrame (d : List UInt8) : frameStarts (keepFrame d) ≠ [] ↔
    frameStarts d ≠ [] := by
  by_cases begun : frameStarts d = []
  · rw [keepFrame_of_quiet begun]
  · obtain ⟨-, -, -, -, ⟨a, rest, kept, mark⟩, -⟩ := pieceStarts_resume (by decide) d begun
    have same : keepFrame d = a :: rest := kept
    refine iff_of_true ?_ begun
    rw [same, frameStarts, pieceStarts_of_mark (by decide) mark]
    exact List.cons_ne_nil _ _

theorem length_keepFrame_le (d : List UInt8) : (keepFrame d).length ≤ d.length := by
  rw [← drop_length_sub_keepFrame d, List.length_drop]
  omega

theorem length_held {t : PlcThread} (fits : t.uRemain ≤ plcBuffSize) :
    t.held.length = t.uRemain := by
  rw [PlcThread.held, Block.length_read, Nat.sub_zero, Nat.min_eq_left fits]

/-- A read is a step of the search when it begins between frames or at the `STX` of one. -/
theorem readChunk_resumed {t : PlcThread} {chunk : List UInt8} (fits : t.uRemain ≤ plcBuffSize)
    (resumed : t.findStart = enable → byteAt (t.held ++ chunk) 0 = stx) (nonempty : chunk ≠ [])
    (room : chunk.length ≤ plcBuffSize - t.uRemain) :
    Searching (readChunk t chunk) ∧
      (readChunk t chunk).held = keepFrame (t.held ++ chunk) ∧
      (readChunk t chunk).info.valid = (t.info.valid || frameFound (t.held ++ chunk)) := by
  have count := length_held fits
  have filled : (t.info.rxBuf.write t.uRemain chunk).read 0 (t.uRemain + chunk.length) =
      t.held ++ chunk := Block.read_write_append _ _ _ (by omega)
  have scan := parserReceiveData_eq resumed (by simp [nonempty]) t.info.valid
  have total : (t.held ++ chunk).length = t.uRemain + chunk.length := by
    rw [List.length_append, count]
  have shorter := length_keepFrame_le (t.held ++ chunk)
  rw [total] at shorter scan
  have rest : t.uRemain + chunk.length - (t.uRemain + chunk.length -
      (keepFrame (t.held ++ chunk)).length) = (keepFrame (t.held ++ chunk)).length := by omega
  have left : (readChunk t chunk).uRemain = (keepFrame (t.held ++ chunk)).length := by
    simp only [readChunk, filled, scan, rest]
  have holds : (readChunk t chunk).held = keepFrame (t.held ++ chunk) := by
    have dropped := drop_length_sub_keepFrame (t.held ++ chunk)
    rw [total] at dropped
    rw [PlcThread.held, left]
    simp only [readChunk, filled, scan, rest]
    split
    · rw [Block.read_moveDown _ _ _ (by omega)]
      calc (t.info.rxBuf.write t.uRemain chunk).read
            (t.uRemain + chunk.length - (keepFrame (t.held ++ chunk)).length)
            (keepFrame (t.held ++ chunk)).length
          = ((t.info.rxBuf.write t.uRemain chunk).read 0 (t.uRemain + chunk.length)).drop
              (t.uRemain + chunk.length - (keepFrame (t.held ++ chunk)).length) := by
            rw [Block.drop_read, Nat.zero_add, rest]
        _ = keepFrame (t.held ++ chunk) := by rw [filled, dropped]
    · rename_i unmoved
      rcases Nat.eq_zero_or_pos (keepFrame (t.held ++ chunk)).length with none_ | some_
      · rw [none_, Block.read_zero_length, List.length_eq_zero_iff.mp none_]
      · have all : t.uRemain + chunk.length = (keepFrame (t.held ++ chunk)).length := by omega
        rw [← all, filled, ← dropped, ← all, Nat.sub_self, List.drop_zero]
  refine ⟨⟨?_, ?_, ?_⟩, holds, ?_⟩
  · rw [left]
    omega
  · rw [holds, keepFrame_keepFrame]
  · rw [holds]
    simp only [readChunk, filled, scan, frameStarts_keepFrame]
  · simp only [readChunk, filled, scan]

/-- **A read is a step of the search.** -/
theorem readChunk_eq {t : PlcThread} {chunk : List UInt8} (searching : Searching t)
    (nonempty : chunk ≠ []) (room : chunk.length ≤ plcBuffSize - t.uRemain) :
    Searching (readChunk t chunk) ∧
      (readChunk t chunk).held = keepFrame (t.held ++ chunk) ∧
      (readChunk t chunk).info.valid = (t.info.valid || frameFound (t.held ++ chunk)) := by
  obtain ⟨fits, kept, flag⟩ := searching
  refine readChunk_resumed fits (fun inside => ?_) nonempty room
  rw [flag, decide_eq_true_iff] at inside
  have some_ : 0 < t.held.length := by
    rw [List.length_pos_iff, ← kept]
    intro empty
    have := keepFrame_starts inside.1
    rw [empty] at this
    exact absurd this (by decide)
  rw [byteAt_append_left some_, ← kept, keepFrame_starts inside.1]

/-- **The reads of a turn are one search** through what was held and everything read. -/
theorem readAll_eq {reads : List (List UInt8)} :
    ∀ {t t' : PlcThread}, Searching t → readAll t reads = some t' →
      Searching t' ∧ t'.held = (frameScanner.feed t.held reads).1 ∧
        t'.info.valid = (t.info.valid || (frameScanner.feed t.held reads).2) := by
  induction reads with
  | nil =>
      intro t t' searching read
      cases read
      exact ⟨searching, rfl, by simp [Scanner.feed, pieceScanner]⟩
  | cons chunk chunks ih =>
      intro t t' searching read
      rw [readAll] at read
      split at read
      · rename_i admitted
        obtain ⟨next, holds, valid⟩ := readChunk_eq searching admitted.1 admitted.2
        obtain ⟨later, holds', valid'⟩ := ih next read
        rw [holds] at holds' valid'
        refine ⟨later, holds', ?_⟩
        rw [valid', valid, Bool.or_assoc]
        rfl
      · cases read

end WhaleShark.Plc

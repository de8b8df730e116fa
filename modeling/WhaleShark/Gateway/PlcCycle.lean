import WhaleShark.Gateway.PlcRuns

/-!
# One cycle over the sensors of a frame

From the turn of the first sensor until it is its turn again, the thread makes one payload for
each turn, in order, from the same frame (`cycle_packetises`). For a TS each payload is the one
packet of the sensor, so that what is sent over a cycle is every packet once. For a TK the walk
makes the packets of sensors 7 to 19 at every turn, and the first six payloads are longer than a
byte can say. So a cycle sends every packet once exactly when the device is a TS
(`cycle_sends_every_packet_iff`).
-/

set_option autoImplicit false

namespace WhaleShark.Plc

open Foundations

/-- The number of sensors of a device. -/
def sensorCount : DevType → ℕ
  | .ts => 11
  | .tk => 19
  | .invalid => 0

/-- The offset in the frame of the field of sensor `k`. The TS has six fields that are not sent
behind the sixth sensor, and two behind the tenth. -/
def layoutOffset (devType : DevType) (k : ℕ) : ℕ :=
  let passedOver := if devType = .ts then (if 6 < k then 6 else 0) + (if 10 < k then 2 else 0) else 0
  1 + fbValueLen * (k - 1 + passedOver)

/-- One whole packet for each sensor of the device, in order. -/
def everyPacket (devInfo : Block UInt8 4) (devType : DevType) (frame : List UInt8) :
    List (List UInt8) :=
  (List.range' 1 (sensorCount devType)).map fun k =>
    sensorPacket devInfo devType (UInt16.ofNat k) (frame.drop (layoutOffset devType k))

theorem length_everyPacket (devInfo : Block UInt8 4) (devType : DevType) (frame : List UInt8) :
    (everyPacket devInfo devType frame).flatten.length = packetLen * sensorCount devType := by
  simp [everyPacket, List.length_flatten, Function.comp_def, Nat.mul_comm]

/-- What a run has passed to `SendData`. -/
def sends (taken : PlcHistory) : List (List UInt8) :=
  (packetisings taken).filterMap (·.sent)

/-- A run from the packet of the first sensor until `sensorCodeCount` is back at 1. -/
structure FullCycle (first : PlcThread) (made : Packetised) (taken : PlcHistory)
    (last : PlcThread) : Prop where
  run : plcThread.Run first taken last
  turn : first.sensorCodeCount = 1
  opens : (taken.head?.bind (·.output)) = some made
  away : ∀ τ ∈ taken.tail, τ.source.sensorCodeCount ≠ 1
  closes : last.sensorCodeCount = 1

/-! ## The turns of a cycle -/

/-- The packetising at the turn of sensor `k`. -/
def packetisedAt (devInfo : Block UInt8 4) (devType : DevType) (cells : List UInt8) (k : ℕ) :
    Packetised :=
  ⟨cells, UInt16.ofNat k, sentAt devInfo devType (UInt16.ofNat k) cells⟩

theorem packetise_at (t : PlcThread) {k : ℕ} (turn : t.sensorCodeCount = UInt16.ofNat k) :
    (packetise t).2 = packetisedAt t.info.devInfo t.info.devType t.info.rxBuf.cells k := by
  rw [packetise_output, packetisedAt, turn]

/-- The turn behind sensor `k` is the next sensor's, or the first one's behind the last. -/
theorem nextSensorCode_of_lt {devType : DevType} {k : ℕ} (low : 1 ≤ k)
    (high : k < sensorCount devType) :
    nextSensorCode devType (UInt16.ofNat k) = UInt16.ofNat (k + 1) := by
  cases devType <;> simp only [sensorCount] at high <;> interval_cases k <;> rfl

theorem nextSensorCode_last {devType : DevType} (device : devType ≠ .invalid) :
    nextSensorCode devType (UInt16.ofNat (sensorCount devType)) = 1 := by
  cases devType with
  | ts => rfl
  | tk => rfl
  | invalid => exact absurd rfl device

theorem ofNat_ne_one {k : ℕ} (low : 1 < k) (high : k < 20) : UInt16.ofNat k ≠ 1 := by
  interval_cases k <;> decide

theorem sensorCount_lt (devType : DevType) : sensorCount devType < 20 := by
  cases devType <;> decide

/-- What holds within a cycle: the device is the same, and the turns so far have made one
payload each; while it is not over, the frame is still in the buffer. -/
structure Cycling (devInfo : Block UInt8 4) (devType : DevType) (rxBuf : Block UInt8 plcBuffSize)
    (made : List Packetised) (t : PlcThread) : Prop where
  sameInfo : t.info.devInfo = devInfo
  sameType : t.info.devType = devType
  sofar : t.sensorCodeCount ≠ 1 → ∃ k, 1 ≤ k ∧ k < sensorCount devType ∧
    t.sensorCodeCount = UInt16.ofNat (k + 1) ∧ t.info.rxBuf = rxBuf ∧
    made = (List.range' 1 k).map (packetisedAt devInfo devType rxBuf.cells)
  complete : t.sensorCodeCount = 1 →
    made = (List.range' 1 (sensorCount devType)).map (packetisedAt devInfo devType rxBuf.cells)

/-- Packetising at the turn of sensor `k` continues the cycle. -/
theorem packetise_cycling {t : PlcThread} (earlier : List Packetised) {k : ℕ}
    (device : t.info.devType ≠ .invalid) (high : k < sensorCount t.info.devType)
    (turn : t.sensorCodeCount = UInt16.ofNat (k + 1))
    (sofar : earlier = (List.range' 1 k).map
      (packetisedAt t.info.devInfo t.info.devType t.info.rxBuf.cells)) :
    Cycling t.info.devInfo t.info.devType t.info.rxBuf (earlier ++ [(packetise t).2])
      (packetise t).1 := by
  obtain ⟨⟨devType, devInfo, -⟩, -, rxBuf⟩ := packetise_keeps t
  have next := sensorCodeCount_packetise t
  have one_more : earlier ++ [(packetise t).2] = (List.range' 1 (k + 1)).map
      (packetisedAt t.info.devInfo t.info.devType t.info.rxBuf.cells) := by
    rw [sofar, packetise_at t turn, List.range'_concat, List.map_append, List.map_singleton,
      Nat.one_mul, Nat.add_comm 1 k]
  rw [turn] at next
  rcases Nat.lt_or_ge (k + 1) (sensorCount t.info.devType) with more | last
  · rw [nextSensorCode_of_lt (by omega) more] at next
    have other : (packetise t).1.sensorCodeCount ≠ 1 := by
      have bound := sensorCount_lt t.info.devType
      rw [next]
      exact ofNat_ne_one (by omega) (by omega)
    rw [if_neg other] at rxBuf
    exact ⟨devInfo, devType, fun _ => ⟨k + 1, by omega, more, next, rxBuf, one_more⟩,
      fun first => absurd first other⟩
  · have all : k + 1 = sensorCount t.info.devType := Nat.le_antisymm high last
    rw [all] at next one_more
    rw [nextSensorCode_last device] at next
    exact ⟨devInfo, devType, fun other => absurd next other, fun _ => one_more⟩

/-- A step away from the first turn continues the cycle. -/
theorem turn_cycling {devInfo : Block UInt8 4} {devType : DevType}
    {rxBuf : Block UInt8 plcBuffSize} {earlier : List Packetised} {t t' : PlcThread}
    {e : PlcEvent} {made : Option Packetised} (device : devType ≠ .invalid)
    (turn : Turn t e t' made) (away : t.sensorCodeCount ≠ 1)
    (cycling : Cycling devInfo devType rxBuf earlier t) :
    Cycling devInfo devType rxBuf (earlier ++ made.toList) t' := by
  cases turn with
  | idle => rwa [Option.toList_none, List.append_nil]
  | searching _ first => exact absurd first away
  | found _ first => exact absurd first away
  | next =>
      obtain ⟨k, -, high, turn, sameBuf, sofar⟩ := cycling.sofar away
      obtain rfl := cycling.sameInfo
      obtain rfl := cycling.sameType
      obtain rfl := sameBuf
      exact packetise_cycling earlier device high turn sofar
  | setTcpStatus =>
      rw [Option.toList_none, List.append_nil]
      exact ⟨cycling.sameInfo, cycling.sameType, cycling.sofar, cycling.complete⟩

/-- The step with which a cycle opens. -/
theorem turn_opens {t t' : PlcThread} {e : PlcEvent} {made : Packetised}
    (turn : Turn t e t' (some made)) (first : t.sensorCodeCount = 1)
    (device : t.info.devType ≠ .invalid) :
    ∃ rxBuf : Block UInt8 plcBuffSize, rxBuf.cells = made.pData ∧
      Cycling t.info.devInfo t.info.devType rxBuf [made] t' := by
  generalize output : some made = o at turn
  cases turn with
  | idle => cases output
  | searching => cases output
  | @found inc reads after _ _ read valid =>
      cases output
      obtain ⟨sameTurn, sameType, sameInfo, -⟩ := reads_keep read
      have some_ : 0 < sensorCount t.info.devType := by
        cases type : t.info.devType with
        | ts => decide
        | tk => decide
        | invalid => exact absurd type device
      refine ⟨after.info.rxBuf, rfl, ?_⟩
      rw [← sameInfo, ← sameType]
      rw [← sameType] at device some_
      exact packetise_cycling (t := { after with info := { after.info with valid := disable } }) []
        (k := 0) device some_ (sameTurn.trans first) rfl
  | next _ more =>
      exact absurd first (UInt16.ne_of_lt more).symm
  | setTcpStatus => cases output

/-- **A full cycle packetises the frame once for each sensor, in order.** -/
theorem cycle_packetises {first last : PlcThread} {made : Packetised} {taken : PlcHistory}
    (cycle : FullCycle first made taken last) (device : first.info.devType ≠ .invalid) :
    packetisings taken = (List.range' 1 (sensorCount first.info.devType)).map
      (packetisedAt first.info.devInfo first.info.devType made.pData) := by
  obtain ⟨run, turn, opens, away, closes⟩ := cycle
  cases taken with
  | nil => simp at opens
  | cons τ rest =>
      obtain ⟨source, event, output, target⟩ := τ
      obtain ⟨rfl, takes, behind⟩ := run.uncons
      obtain rfl : output = some made := by simpa using opens
      obtain ⟨rxBuf, cells, opened⟩ := turn_opens (plcThread_cases takes) turn device
      obtain ⟨cycling, -⟩ := behind.history
        (fun past t => Cycling source.info.devInfo source.info.devType rxBuf
          (made :: packetisings past) t)
        opened
        (fun past τ takes away cycling => by
          have onward := turn_cycling device (plcThread_cases takes) away cycling
          rwa [packetisings_concat, ← List.cons_append])
        away
      rw [← cells]
      exact cycling.complete closes

/-! ## What is sent over a cycle -/

/-- The payload of a TS is the packet of the sensor whose turn it is. -/
theorem payload_ts (devInfo : Block UInt8 4) (pData : List UInt8) {k : ℕ} (low : 1 ≤ k)
    (high : k ≤ 11) :
    payload devInfo .ts (UInt16.ofNat k) pData =
      sensorPacket devInfo .ts (UInt16.ofNat k) (pData.drop (layoutOffset .ts k)) := by
  interval_cases k <;>
    simp [payload, packetsOf, commonFields, tsFields, fbValueLen, layoutOffset]

/-- The field of a sensor lies within the frame. -/
theorem layoutOffset_lt (devType : DevType) {k : ℕ} (high : k ≤ sensorCount devType) :
    layoutOffset devType k + 3 < plcDataLen := by
  cases devType <;> simp only [sensorCount] at high <;> interval_cases k <;> decide

/-- A packet is made of the four bytes of its field. -/
theorem sensorPacket_take (devInfo : Block UInt8 4) (devType : DevType) (code : UInt16)
    (pData : List UInt8) {offset : ℕ} (inside : offset + 3 < plcDataLen) :
    sensorPacket devInfo devType code ((pData.take plcDataLen).drop offset) =
      sensorPacket devInfo devType code (pData.drop offset) := by
  have same (i : ℕ) (bound : i ≤ 3) :
      byteAt ((pData.take plcDataLen).drop offset) i = byteAt (pData.drop offset) i := by
    rw [byteAt_drop, byteAt_drop, byteAt_take (by omega)]
  simp only [sensorPacket, same 0 (by decide), same 1 (by decide), same 2 (by decide),
    same 3 (by decide)]

/-- What a TS sends at the turn of sensor `k` is the packet of sensor `k`. -/
theorem sentAt_ts (devInfo : Block UInt8 4) (pData : List UInt8) {k : ℕ} (low : 1 ≤ k)
    (high : k ≤ 11) :
    sentAt devInfo .ts (UInt16.ofNat k) pData = some (sensorPacket devInfo .ts (UInt16.ofNat k)
      ((pData.take plcDataLen).drop (layoutOffset .ts k))) := by
  have whole : (packetLen.toUInt8).toNat = packetLen := by decide
  have some_ : 0 < packetLen.toUInt8 := by decide
  simp only [sentAt, payload_ts devInfo pData low high, length_sensorPacket, if_pos some_, whole]
  rw [sensorPacket_take devInfo .ts _ pData (layoutOffset_lt .ts high),
    List.take_of_length_le (by rw [length_sensorPacket])]

/-- The payload of a TK is the packets of sensors 7 to 19, and of one more at the first six
turns. -/
theorem length_payload_tk (devInfo : Block UInt8 4) (pData : List UInt8) {k : ℕ} (low : 1 ≤ k)
    (high : k ≤ 19) :
    (payload devInfo .tk (UInt16.ofNat k) pData).length = if k ≤ 6 then 266 else 247 := by
  simp only [payload, reduceCtorEq, if_false, List.length_append, length_packetsOf]
  interval_cases k <;> decide

/-- What a TK sends at a turn: the first 10 bytes of a payload of 266, or 13 packets. -/
theorem sentAt_tk (devInfo : Block UInt8 4) (pData : List UInt8) {k : ℕ} (low : 1 ≤ k)
    (high : k ≤ 19) :
    sentAt devInfo .tk (UInt16.ofNat k) pData =
      some ((payload devInfo .tk (UInt16.ofNat k) pData).take (if k ≤ 6 then 10 else 247)) := by
  simp only [sentAt, length_payload_tk devInfo pData low high]
  split <;> rfl

/-- What a full cycle has passed to `SendData`, when every turn passes something. -/
theorem sends_of_cycle {first last : PlcThread} {made : Packetised} {taken : PlcHistory}
    (cycle : FullCycle first made taken last) (device : first.info.devType ≠ .invalid)
    {sentBy : ℕ → List UInt8}
    (each : ∀ k, 1 ≤ k → k ≤ sensorCount first.info.devType →
      sentAt first.info.devInfo first.info.devType (UInt16.ofNat k) made.pData = some (sentBy k)) :
    sends taken = (List.range' 1 (sensorCount first.info.devType)).map sentBy := by
  rw [sends, cycle_packetises cycle device, List.filterMap_map,
    List.filterMap_eq_map_iff_forall_eq_some]
  intro k member
  obtain ⟨low, high⟩ := List.mem_range'_1.mp member
  exact each k low (by omega)

/-- A full cycle of a TK sends ten bytes at each of the first six turns, and 13 packets at each
of the others. -/
theorem length_sends_tk {first last : PlcThread} {made : Packetised} {taken : PlcHistory}
    (cycle : FullCycle first made taken last) (type : first.info.devType = .tk) :
    (sends taken).flatten.length = 6 * 10 + 13 * 247 := by
  rw [sends_of_cycle cycle (by rw [type]; decide) (fun k low high => by
    rw [type] at high ⊢
    exact sentAt_tk first.info.devInfo made.pData low high), type]
  simp only [List.length_flatten, List.map_map, Function.comp_def, List.length_take]
  have lengths : ((List.range' 1 (sensorCount .tk)).map fun k => min (if k ≤ 6 then 10 else 247)
      (payload first.info.devInfo .tk (UInt16.ofNat k) made.pData).length) =
        (List.range' 1 (sensorCount .tk)).map fun k => if k ≤ 6 then 10 else 247 := by
    refine List.map_congr_left fun k member => ?_
    obtain ⟨low, high⟩ := List.mem_range'_1.mp member
    rw [length_payload_tk first.info.devInfo made.pData low
      (by simp only [sensorCount] at high; omega)]
    split <;> rfl
  rw [lengths]
  decide

/-- **A full cycle sends every packet once, whole and in order, exactly when the device is a
TS.** -/
theorem cycle_sends_every_packet_iff {first last : PlcThread} {made : Packetised}
    {taken : PlcHistory} (cycle : FullCycle first made taken last)
    (device : first.info.devType ≠ .invalid) :
    (sends taken).flatten =
        (everyPacket first.info.devInfo first.info.devType (made.pData.take plcDataLen)).flatten ↔
      first.info.devType = .ts := by
  cases type : first.info.devType with
  | invalid => exact absurd type device
  | ts =>
      refine iff_of_true ?_ rfl
      rw [sends_of_cycle cycle device (fun k low high => by
        rw [type] at high ⊢
        exact sentAt_ts first.info.devInfo made.pData low high), type]
      rfl
  | tk =>
      refine iff_of_false (fun same => ?_) (by decide)
      have count := congrArg List.length same
      rw [length_sends_tk cycle type, length_everyPacket] at count
      exact absurd count (by decide)

/-- The thread with a cleared buffer, serving a connection for the device. -/
def started (devInfo : List UInt8) (devType : DevType) : PlcThread :=
  { startedTs with
    info := { startedTs.info with
      devInfo := (Block.fill 4 0).write 0 devInfo
      devType := devType } }

/-- A frame of zeros arrives, and then `SMSG_INC_DATA` for each sensor behind the first. -/
def cycleEvents (devType : DevType) : List PlcEvent :=
  .received true false [frameOfZeros ++ [0]] ::
    List.replicate (sensorCount devType - 1) (.received false true [])

/-- The run opens with a packet, and is away from the first turn until it ends. -/
def isFullCycle (taken : PlcHistory) (last : PlcThread) : Bool :=
  (taken.head?.bind (·.output)).isSome && taken.tail.all (·.source.sensorCodeCount != 1) &&
    last.sensorCodeCount == 1

theorem fullCycle_of_isFullCycle {first last : PlcThread} {taken : PlcHistory}
    (run : plcThread.Run first taken last) (turn : first.sensorCodeCount = 1)
    (checked : isFullCycle taken last = true) : ∃ made, FullCycle first made taken last := by
  simp only [isFullCycle, Bool.and_eq_true, List.all_eq_true, bne_iff_ne, beq_iff_eq] at checked
  obtain ⟨⟨opens, away⟩, closes⟩ := checked
  obtain ⟨made, opens⟩ := Option.isSome_iff_exists.mp opens
  exact ⟨made, run, turn, opens, away, closes⟩

/-- A cycle of a TS. -/
theorem cycle_sends_every_packet_iff_ts : ∃ made taken last,
    FullCycle (started ts .ts) made taken last ∧
      (sends taken).flatten = (everyPacket (started ts .ts).info.devInfo .ts
        (made.pData.take plcDataLen)).flatten := by
  obtain ⟨taken, last, run, checked⟩ := Machine.exists_run_of_passes plcThread (started ts .ts)
    (cycleEvents .ts) isFullCycle (by decide +kernel)
  obtain ⟨made, cycle⟩ := fullCycle_of_isFullCycle run rfl checked
  exact ⟨made, taken, last, cycle, (cycle_sends_every_packet_iff cycle (by decide)).mpr rfl⟩

/-- **A cycle of a TK sends 3271 bytes.** The packets of its 19 sensors are 361. -/
theorem cycle_of_tk_sends_more : ∃ made taken last,
    FullCycle (started tk .tk) made taken last ∧
      (sends taken).flatten ≠ (everyPacket (started tk .tk).info.devInfo .tk
        (made.pData.take plcDataLen)).flatten := by
  obtain ⟨taken, last, run, checked⟩ := Machine.exists_run_of_passes plcThread (started tk .tk)
    (cycleEvents .tk) isFullCycle (by decide +kernel)
  obtain ⟨made, cycle⟩ := fullCycle_of_isFullCycle run rfl checked
  refine ⟨made, taken, last, cycle, fun same => ?_⟩
  have count := congrArg List.length same
  rw [length_sends_tk cycle rfl, length_everyPacket] at count
  exact absurd count (by decide)

end WhaleShark.Plc

import WhaleShark.Foundations.Blocks
import WhaleShark.Gateway.CLibrary
import WhaleShark.Gateway.PlcFrame

/-!
# The packets made of a PLC frame

`InitPlcCommInfo` takes the device from the configuration, `MakeSensorValue` writes one packet
of 19 bytes into the transmit buffer, and `MakeSensorPayloadData` walks over the frame and makes
the packet of the sensor whose turn it is.

What `makeSensorValue` writes is `sensorPacket` (`makeSensorValue_eq`). The walk is over rows of
fields, each with the number of bytes to the next, and makes the packets of `payload`
(`makeSensorPayloadData_eq`).
-/

set_option autoImplicit false

namespace WhaleShark.Plc

open Foundations

/-- `PLC_BUFF_SIZE` -/
def plcBuffSize : ℕ := 512

/-- `PV` -/
def pv : List UInt8 := text "PV"

/-- `TS` -/
def ts : List UInt8 := text "TS"

/-- `TK` -/
def tk : List UInt8 := text "TK"

/-- `FB_VALUE_LEN` -/
def fbValueLen : ℕ := 4

/-- `DEV_TYPE_TS`, `DEV_TYPE_TK`, `DEV_TYPE_INVALID` -/
inductive DevType where
  | ts
  | tk
  | invalid
  deriving DecidableEq, Repr

/-- `PlcCommInfo` -/
structure PlcCommInfo where
  tcpOn : FunctionalState
  devInfo : Block UInt8 4
  devType : DevType
  /-- `plDataInfo.valid` -/
  valid : FunctionalState
  txBuf : Block UInt8 plcBuffSize
  rxBuf : Block UInt8 plcBuffSize
  deriving DecidableEq

/-- `InitPlcCommInfo`, for the memory at `pData`. -/
def initPlcCommInfo (info : PlcCommInfo) (pData : List UInt8) : PlcCommInfo :=
  let devNum := (strtoul (pData.drop 2)).toUInt16
  let devInfo := info.devInfo.write 0 [byteAt pData 0, byteAt pData 1]
  let devInfo := devInfo.write 2 (leBytes16 (htons devNum))
  { info with
    tcpOn := disable
    valid := disable
    devInfo := devInfo
    devType :=
      if rtStrncmp devInfo.cells ts (rtStrlen ts) = 0 then .ts
      else if rtStrncmp devInfo.cells tk (rtStrlen tk) = 0 then .tk
      else .invalid }

/-- What `InitPlcCommInfo` keeps of the device: two letters, and the number with its high byte
first. The type is that of the letters. -/
theorem initPlcCommInfo_eq (info : PlcCommInfo) (pData : List UInt8) :
    (initPlcCommInfo info pData).devInfo.cells =
        [byteAt pData 0, byteAt pData 1] ++
          leBytes16 (htons (strtoul (pData.drop 2)).toUInt16) ∧
      (initPlcCommInfo info pData).devType =
        if [byteAt pData 0, byteAt pData 1] = ts then .ts
        else if [byteAt pData 0, byteAt pData 1] = tk then .tk
        else .invalid := by
  have cells : ((info.devInfo.write 0 [byteAt pData 0, byteAt pData 1]).write 2
      (leBytes16 (htons (strtoul (pData.drop 2)).toUInt16))).cells =
        [byteAt pData 0, byteAt pData 1] ++
          leBytes16 (htons (strtoul (pData.drop 2)).toUInt16) := by
    have behind := Block.write_write info.devInfo 0 [byteAt pData 0, byteAt pData 1]
      (leBytes16 (htons (strtoul (pData.drop 2)).toUInt16))
    rw [Nat.zero_add] at behind
    refine (congrArg Block.cells behind).trans (Block.cells_write_all _ ?_)
    rw [List.length_append, length_leBytes16]
    rfl
  have begins (t : List UInt8) (name : t = ts ∨ t = tk) :
      rtStrncmp ([byteAt pData 0, byteAt pData 1] ++
        leBytes16 (htons (strtoul (pData.drop 2)).toUInt16)) t (rtStrlen t) = 0 ↔
          [byteAt pData 0, byteAt pData 1] = t := by
    have length : rtStrlen t = 2 ∧ t.length = 2 ∧ ∀ b ∈ t, b ≠ 0 := by
      rcases name with rfl | rfl <;> decide +kernel
    have two : [byteAt pData 0, byteAt pData 1].length = 2 := rfl
    rw [length.1, rtStrncmp_eq_zero_iff (by omega)
      (fun b member => length.2.2 b (List.mem_of_mem_take member)),
      List.take_left' two, List.take_of_length_le (by omega)]
  simp only [initPlcCommInfo, cells, begins ts (.inl rfl), begins tk (.inr rfl), and_self]

/-- `MakeSensorValue`, for the memory at `pData`: the packet goes into the transmit buffer at
`position`, and the result is its length. -/
def makeSensorValue (info : PlcCommInfo) (sensorCode : UInt16) (pData : List UInt8)
    (position : ℕ) : PlcCommInfo × ℕ :=
  let time : UInt32 := 0
  let pos : Cursor UInt8 plcBuffSize := ⟨info.txBuf, position⟩
  let pos := pos.put [stx]
  let pos := pos.put (leBytes32 (htonl time))
  let pos := pos.put info.devInfo.cells
  let innerPress : UInt16 := if info.devType = .ts then 7 else 13
  let outerPress : UInt16 := if info.devType = .ts then 8 else 14
  let pos := pos.put (leBytes16 (htons sensorCode))
  let pos := pos.put pv
  let u32Val := ofLeBytes32 (byteAt pData 0) (byteAt pData 1) (byteAt pData 2) (byteAt pData 3)
  let pos := pos.put (leBytes32 (htonl u32Val))
  let floatingPoint : UInt8 :=
    if innerPress = sensorCode ∨ outerPress = sensorCode then 3 else 1
  let pos := pos.put [floatingPoint]
  let pos := pos.put [etx]
  ({ info with txBuf := pos.block }, pos.pos - position)

/-- What the walk of `MakeSensorPayloadData` carries: the offset of `begin` in the frame, and the
bytes made so far. -/
structure Making where
  info : PlcCommInfo
  begin_ : ℕ
  size : ℕ

/-- `size += MakeSensorValue(code, begin, size)` -/
def Making.sensor (pData : List UInt8) (m : Making) (code : UInt16) : Making :=
  let made := makeSensorValue m.info code (pData.drop m.begin_) m.size
  { m with info := made.1, size := m.size + made.2 }

/-- `begin += bytes` -/
def Making.advance (m : Making) (bytes : ℕ) : Making := { m with begin_ := m.begin_ + bytes }

/-- A sensor, and the number of bytes from its field to the next one that is looked at. -/
abbrev Field := UInt16 × ℕ

/-- A field that is packetised when it is its sensor's turn. -/
def Making.fieldIf (pData : List UInt8) (sensorCodeCount : UInt16) (m : Making) (f : Field) :
    Making :=
  (if f.1 = sensorCodeCount then m.sensor pData f.1 else m).advance f.2

/-- A field that is packetised whatever the turn. -/
def Making.field (pData : List UInt8) (m : Making) (f : Field) : Making :=
  (m.sensor pData f.1).advance f.2

/-- Sensors 1 to 6, which both devices have. -/
def commonFields : List Field :=
  [(1, fbValueLen), (2, fbValueLen), (3, fbValueLen), (4, fbValueLen), (5, fbValueLen),
    (6, fbValueLen)]

/-- Sensors 7 to 11 of the TS. Behind sensor 10 two fields are passed over. -/
def tsFields : List Field :=
  [(7, fbValueLen), (8, fbValueLen), (9, fbValueLen),
    (10, fbValueLen + fbValueLen + fbValueLen), (11, 0)]

/-- Sensors 7 to 19 of the TK. -/
def tkFields : List Field :=
  [(7, fbValueLen), (8, fbValueLen), (9, fbValueLen), (10, fbValueLen), (11, fbValueLen),
    (12, fbValueLen), (13, fbValueLen), (14, fbValueLen), (15, fbValueLen), (16, fbValueLen),
    (17, fbValueLen), (18, fbValueLen), (19, 0)]

/-- `MakeSensorPayloadData`, for the memory at `pData`. The result is the number of bytes made. -/
def makeSensorPayloadData (info : PlcCommInfo) (sensorCodeCount : UInt16) (pData : List UInt8) :
    PlcCommInfo × ℕ :=
  -- behind the `STX`
  let made := commonFields.foldl (Making.fieldIf pData sensorCodeCount) ⟨info, 1, 0⟩
  let made :=
    if info.devType = .ts then
      -- six fields, from RS to T, are passed over
      tsFields.foldl (Making.fieldIf pData sensorCodeCount) (made.advance (6 * fbValueLen))
    else tkFields.foldl (Making.field pData) made
  (made.info, made.size)

/-! ## One packet -/

/-- The decimal point a packet states: 3 for the two pressures of the device, else 1. -/
def decimalPoint (devType : DevType) (sensorCode : UInt16) : UInt8 :=
  if sensorCode = (if devType = .ts then 7 else 13) ∨
      sensorCode = (if devType = .ts then 8 else 14) then 3 else 1

/-- The packet of a sensor, for the field at the front of `value`. -/
def sensorPacket (devInfo : Block UInt8 4) (devType : DevType) (sensorCode : UInt16)
    (value : List UInt8) : List UInt8 :=
  [stx, 0, 0, 0, 0] ++ devInfo.cells ++ [(sensorCode >>> 8).toUInt8, sensorCode.toUInt8] ++ pv ++
    [byteAt value 3, byteAt value 2, byteAt value 1, byteAt value 0] ++
    [decimalPoint devType sensorCode, etx]

/-- The length of a packet. -/
def packetLen : ℕ := 19

@[simp] theorem length_sensorPacket (devInfo : Block UInt8 4) (devType : DevType)
    (sensorCode : UInt16) (value : List UInt8) :
    (sensorPacket devInfo devType sensorCode value).length = packetLen := by
  simp [sensorPacket, devInfo.length_cells, pv, text, packetLen]

/-- **`MakeSensorValue` writes the packet at its position and returns its length.** -/
theorem makeSensorValue_eq (info : PlcCommInfo) (sensorCode : UInt16) (pData : List UInt8)
    (position : ℕ) :
    makeSensorValue info sensorCode pData position =
      ({ info with
          txBuf := info.txBuf.write position
            (sensorPacket info.devInfo info.devType sensorCode pData) }, packetLen) := by
  have zeros : leBytes32 (htonl 0) = [0, 0, 0, 0] := by decide
  have bytes : [stx] ++ leBytes32 (htonl 0) ++ info.devInfo.cells ++
      leBytes16 (htons sensorCode) ++ pv ++ leBytes32 (htonl (ofLeBytes32 (byteAt pData 0)
        (byteAt pData 1) (byteAt pData 2) (byteAt pData 3))) ++
      [if (if info.devType = .ts then (7 : UInt16) else 13) = sensorCode ∨
          (if info.devType = .ts then (8 : UInt16) else 14) = sensorCode then (3 : UInt8) else 1] ++
      [etx] = sensorPacket info.devInfo info.devType sensorCode pData := by
    simp only [zeros, leBytes16_htons, leBytes32_htonl, sensorPacket, decimalPoint, eq_comm,
      List.append_assoc, List.cons_append, List.nil_append]
  simp only [makeSensorValue, Cursor.put_put, bytes]
  simp only [Cursor.put, length_sensorPacket, Nat.add_sub_cancel_left]

/-! ## The packets of a walk -/

/-- The packets of a row of fields, the first of them at offset `begin_` of the frame: of the
sensors whose turn it is. -/
def packetsOf (turn : UInt16 → Bool) (devInfo : Block UInt8 4) (devType : DevType)
    (pData : List UInt8) : List Field → ℕ → List UInt8
  | [], _ => []
  | f :: fields, begin_ =>
      (if turn f.1 then sensorPacket devInfo devType f.1 (pData.drop begin_) else []) ++
        packetsOf turn devInfo devType pData fields (begin_ + f.2)

/-- Each packet has the same length. -/
theorem length_packetsOf (turn : UInt16 → Bool) (devInfo : Block UInt8 4) (devType : DevType)
    (pData : List UInt8) (fields : List Field) (begin_ : ℕ) :
    (packetsOf turn devInfo devType pData fields begin_).length =
      packetLen * fields.countP (fun f => turn f.1) := by
  induction fields generalizing begin_ with
  | nil => rfl
  | cons f fields ih =>
      rw [packetsOf, List.length_append, ih, List.countP_cons]
      cases turn f.1 <;> simp [Nat.mul_add, Nat.add_comm]

/-- What a walk has made so far: it stands at `begin_`, and the packets are at the beginning of
the transmit buffer. -/
def madeSoFar (info : PlcCommInfo) (made : List UInt8) (begin_ : ℕ) : Making where
  info := { info with txBuf := info.txBuf.write 0 made }
  begin_ := begin_
  size := made.length

theorem madeSoFar_nil (info : PlcCommInfo) (begin_ : ℕ) :
    madeSoFar info [] begin_ = ⟨info, begin_, 0⟩ := by
  simp only [madeSoFar, Block.write_nil, List.length_nil]

theorem advance_madeSoFar (info : PlcCommInfo) (made : List UInt8) (begin_ bytes : ℕ) :
    (madeSoFar info made begin_).advance bytes = madeSoFar info made (begin_ + bytes) := rfl

theorem sensor_madeSoFar (info : PlcCommInfo) (pData made : List UInt8) (begin_ : ℕ)
    (code : UInt16) :
    (madeSoFar info made begin_).sensor pData code =
      madeSoFar info (made ++ sensorPacket info.devInfo info.devType code (pData.drop begin_))
        begin_ := by
  have behind := Block.write_write info.txBuf 0 made
    (sensorPacket info.devInfo info.devType code (pData.drop begin_))
  rw [Nat.zero_add] at behind
  simp only [Making.sensor, makeSensorValue_eq, madeSoFar, behind, List.length_append,
    length_sensorPacket]

/-- A walk over a row of fields makes their packets. -/
theorem foldl_madeSoFar {next : Making → Field → Making} {info : PlcCommInfo}
    (turn : UInt16 → Bool) (pData : List UInt8)
    (makes : ∀ made begin_ f, next (madeSoFar info made begin_) f =
      madeSoFar info (made ++ if turn f.1 then
        sensorPacket info.devInfo info.devType f.1 (pData.drop begin_) else []) (begin_ + f.2))
    (fields : List Field) (made : List UInt8) (begin_ : ℕ) :
    fields.foldl next (madeSoFar info made begin_) =
      madeSoFar info (made ++ packetsOf turn info.devInfo info.devType pData fields begin_)
        (begin_ + (fields.map Prod.snd).sum) := by
  induction fields generalizing made begin_ with
  | nil => simp [packetsOf]
  | cons f fields ih =>
      rw [List.foldl_cons, makes, ih, packetsOf, List.append_assoc, List.map_cons, List.sum_cons,
        Nat.add_assoc]

theorem fieldIf_madeSoFar (info : PlcCommInfo) (pData : List UInt8) (sensorCodeCount : UInt16)
    (made : List UInt8) (begin_ : ℕ) (f : Field) :
    (madeSoFar info made begin_).fieldIf pData sensorCodeCount f =
      madeSoFar info (made ++ if f.1 == sensorCodeCount then
        sensorPacket info.devInfo info.devType f.1 (pData.drop begin_) else [])
        (begin_ + f.2) := by
  simp only [Making.fieldIf, beq_iff_eq]
  split
  · rw [sensor_madeSoFar, advance_madeSoFar]
  · rw [List.append_nil, advance_madeSoFar]

theorem field_madeSoFar (info : PlcCommInfo) (pData made : List UInt8) (begin_ : ℕ) (f : Field) :
    (madeSoFar info made begin_).field pData f =
      madeSoFar info (made ++ if true then
        sensorPacket info.devInfo info.devType f.1 (pData.drop begin_) else [])
        (begin_ + f.2) := by
  rw [Making.field, sensor_madeSoFar, advance_madeSoFar, if_pos rfl]

/-- The packets made at a sensor's turn. Of the sensors behind the sixth, the TS has the one
whose turn it is; any other device has all of them. -/
def payload (devInfo : Block UInt8 4) (devType : DevType) (sensorCodeCount : UInt16)
    (pData : List UInt8) : List UInt8 :=
  packetsOf (· == sensorCodeCount) devInfo devType pData commonFields 1 ++
    if devType = .ts then packetsOf (· == sensorCodeCount) devInfo devType pData tsFields 49
    else packetsOf (fun _ => true) devInfo devType pData tkFields 25

/-- **`MakeSensorPayloadData` writes the payload at the beginning of the transmit buffer and
returns its length.** Nothing else changes. -/
theorem makeSensorPayloadData_eq (info : PlcCommInfo) (sensorCodeCount : UInt16)
    (pData : List UInt8) :
    makeSensorPayloadData info sensorCodeCount pData =
      ({ info with
          txBuf := info.txBuf.write 0
            (payload info.devInfo info.devType sensorCodeCount pData) },
        (payload info.devInfo info.devType sensorCodeCount pData).length) := by
  have ifMakes := foldl_madeSoFar (· == sensorCodeCount) pData
    (fieldIf_madeSoFar info pData sensorCodeCount)
  have allMake := foldl_madeSoFar (fun _ => true) pData (field_madeSoFar info pData)
  have behind : 1 + (commonFields.map Prod.snd).sum = 25 := by decide
  simp only [makeSensorPayloadData]
  rw [← madeSoFar_nil, ifMakes commonFields, behind, List.nil_append, advance_madeSoFar]
  by_cases device : info.devType = .ts
  · have skipped : 25 + 6 * fbValueLen = 49 := by decide
    rw [if_pos device, skipped, ifMakes tsFields, payload, if_pos device]
    rfl
  · rw [if_neg device, allMake tkFields, payload, if_neg device]
    rfl

end WhaleShark.Plc

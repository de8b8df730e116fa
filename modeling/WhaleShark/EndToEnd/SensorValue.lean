import WhaleShark.Gateway.PlcPacket
import WhaleShark.Server.Convert

/-!
# The server decodes what the gateway encodes

The gateway keeps its device as two letters and a number, and writes both, the sensor code and
the value with their high bytes first. The server puts the number and the code into texts of four
decimal digits. For every device of the two types, sensor code and value, and whatever follows
the packet, the server gets back the device, the code, and the number that the PLC wrote with its
low byte first (`server_decodes_gateway`).
-/

set_option autoImplicit false

namespace WhaleShark.EndToEnd

open Foundations Plc Server

/-- A device id: `TS` or `TK`, and four decimal digits. -/
structure DeviceId where
  isTk : Bool
  digits : Block UInt8 4
  decimal : ∀ b ∈ digits.cells, isDigit b = true

namespace DeviceId

/-- The id as it stands in the configuration. -/
def bytes (id : DeviceId) : List UInt8 := (if id.isTk then tk else ts) ++ id.digits.cells

/-- The id as a text. -/
def text (id : DeviceId) : Str := id.bytes.map fun b => chr b.toNat

def devType (id : DeviceId) : DevType := if id.isTk then .tk else .ts

/-- The codes of the two pressures of the device. -/
def pressureCodes (id : DeviceId) : List UInt16 := if id.isTk then [13, 14] else [7, 8]

end DeviceId

/-! ## The device -/

/-- Four decimal digits, one by one. -/
theorem exists_digits (digits : Block UInt8 4) (decimal_ : ∀ b ∈ digits.cells, isDigit b = true) :
    ∃ d0 d1 d2 d3 : ℕ, d0 < 10 ∧ d1 < 10 ∧ d2 < 10 ∧ d3 < 10 ∧
      digits.cells = [(0x30 + d0).toUInt8, (0x30 + d1).toUInt8, (0x30 + d2).toUInt8,
        (0x30 + d3).toUInt8] := by
  have one (b : UInt8) (isDigit_ : isDigit b = true) :
      ∃ d : ℕ, d < 10 ∧ b = (0x30 + d).toUInt8 := by
    simp only [isDigit, Bool.and_eq_true, decide_eq_true_eq, UInt8.le_iff_toNat_le] at isDigit_
    have low : 0x30 ≤ b.toNat := isDigit_.1
    have high : b.toNat ≤ 0x39 := isDigit_.2
    refine ⟨b.toNat - 0x30, by omega, ?_⟩
    rw [Nat.add_sub_cancel' low]
    exact (UInt8.ofNat_toNat).symm
  obtain ⟨cells, four⟩ := digits
  obtain ⟨a, b, c, d, rfl⟩ := List.length_eq_four.mp four
  obtain ⟨d0, small0, rfl⟩ := one a (decimal_ a (by simp))
  obtain ⟨d1, small1, rfl⟩ := one b (decimal_ b (by simp))
  obtain ⟨d2, small2, rfl⟩ := one c (decimal_ c (by simp))
  obtain ⟨d3, small3, rfl⟩ := one d (decimal_ d (by simp))
  exact ⟨d0, d1, d2, d3, small0, small1, small2, small3, rfl⟩

theorem toNat_digit {d : ℕ} (small : d < 10) : (0x30 + d).toUInt8.toNat = 0x30 + d := by
  rw [Nat.toUInt8_eq, UInt8.toNat_ofNat']
  omega

theorem decimal_four {d0 d1 d2 d3 : ℕ} (small0 : d0 < 10) (small1 : d1 < 10) (small2 : d2 < 10)
    (small3 : d3 < 10) :
    decimal [(0x30 + d0).toUInt8, (0x30 + d1).toUInt8, (0x30 + d2).toUInt8, (0x30 + d3).toUInt8] =
      1000 * d0 + 100 * d1 + 10 * d2 + d3 := by
  simp only [decimal, List.foldl_cons, List.foldl_nil, toNat_digit small0, toNat_digit small1,
    toNat_digit small2, toNat_digit small3]
  omega

/-- `strtoul` reads the number of the id, which fits into a half word. -/
theorem strtoul_number (id : DeviceId) {after : List UInt8}
    (ends : isDigit (byteAt after 0) = false) :
    (strtoul ((id.bytes ++ after).drop 2)).toUInt16 = (decimal id.digits.cells).toUInt16 := by
  obtain ⟨d0, d1, d2, d3, small0, small1, small2, small3, cells⟩ :=
    exists_digits id.digits id.decimal
  have number := decimal_four small0 small1 small2 small3
  rw [← cells] at number
  have behind : (id.bytes ++ after).drop 2 = id.digits.cells ++ after := by
    simp only [DeviceId.bytes]
    split <;> rfl
  rw [behind, strtoul_of_digits (by rw [cells]; simp) id.decimal ends (by omega)]
  apply UInt16.toNat_inj.mp
  rw [UInt32.toNat_toUInt16, Nat.toUInt32_eq, Nat.toUInt16_eq, UInt32.toNat_ofNat',
    UInt16.toNat_ofNat']
  omega

/-- What `InitPlcCommInfo` makes of a device id: its type, its letters, and its number with the
high byte first. -/
theorem initPlcCommInfo_device (info : PlcCommInfo) (id : DeviceId) {after : List UInt8}
    (ends : isDigit (byteAt after 0) = false) :
    (initPlcCommInfo info (id.bytes ++ after)).devType = id.devType ∧
      (initPlcCommInfo info (id.bytes ++ after)).devInfo.cells =
        (if id.isTk then tk else ts) ++ leBytes16 (htons (decimal id.digits.cells).toUInt16) := by
  have letters : [byteAt (id.bytes ++ after) 0, byteAt (id.bytes ++ after) 1] =
      if id.isTk then tk else ts := by
    simp only [DeviceId.bytes]
    split <;> rfl
  obtain ⟨devInfo, devType⟩ := initPlcCommInfo_eq info (id.bytes ++ after)
  rw [letters] at devInfo devType
  refine ⟨devType.trans ?_, by rw [devInfo, strtoul_number id ends]⟩
  rw [DeviceId.devType]
  cases id.isTk <;> decide

/-! ## The packet -/

/-- A half word written with its high byte first is read back. -/
theorem bigEndian_halfWord (x : UInt16) : bigEndian [(x >>> 8).toUInt8, x.toUInt8] = x.toNat := by
  have bound := x.toNat_lt
  simp only [bigEndian, List.foldl_cons, List.foldl_nil, UInt16.toNat_toUInt8,
    UInt16.toNat_shiftRight, UInt16.reduceToNat, Nat.reduceMod, Nat.shiftRight_eq_div_pow]
  omega

/-- The id is back in one piece when its number is written with four digits. -/
theorem equipmentId_eq (id : DeviceId) :
    (if id.isTk then tk else ts).map (fun b => chr b.toNat) ++
      format04d (decimal id.digits.cells).toUInt16.toNat = id.text := by
  obtain ⟨d0, d1, d2, d3, small0, small1, small2, small3, cells⟩ :=
    exists_digits id.digits id.decimal
  have number := decimal_four small0 small1 small2 small3
  rw [← cells] at number
  have value : (decimal id.digits.cells).toUInt16.toNat = 1000 * d0 + 100 * d1 + 10 * d2 + d3 := by
    rw [Nat.toUInt16_eq, UInt16.toNat_ofNat', number]
    omega
  have thousands : (1000 * d0 + 100 * d1 + 10 * d2 + d3) / 1000 = d0 := by omega
  have hundreds : (1000 * d0 + 100 * d1 + 10 * d2 + d3) / 100 % 10 = d1 := by omega
  have tens : (1000 * d0 + 100 * d1 + 10 * d2 + d3) / 10 % 10 = d2 := by omega
  have ones : (1000 * d0 + 100 * d1 + 10 * d2 + d3) % 10 = d3 := by omega
  have zero : '0'.toNat = 0x30 := rfl
  rw [value, format04d_digits (by omega), thousands, hundreds, tens, ones]
  simp only [DeviceId.text, DeviceId.bytes, List.map_append, cells, List.map_cons, List.map_nil,
    toNat_digit small0, toNat_digit small1, toNat_digit small2, toNat_digit small3, digit, zero,
    chr]

/-- A packet with its fields at their places. -/
def packetBytes (letter letter' number number' code code' v3 v2 v1 v0 point : UInt8) : List UInt8 :=
  [2, 0, 0, 0, 0, letter, letter', number, number', code, code', 0x50, 0x56, v3, v2, v1, v0, point,
    3]

theorem decodes_packetBytes (letter letter' number number' code code' v3 v2 v1 v0 point : UInt8)
    (trailing : List UInt8) :
    Decodes (packetBytes letter letter' number number' code code' v3 v2 v1 v0 point ++ trailing) :=
  ⟨rfl, by simp [packetBytes], .inr rfl⟩

theorem readingOf_packetBytes (letter letter' number number' code code' v3 v2 v1 v0 point : UInt8)
    (trailing : List UInt8) :
    readingOf (packetBytes letter letter' number number' code code' v3 v2 v1 v0 point ++ trailing) =
      { equipmentId := [letter, letter'].map (fun b => chr b.toNat) ++
          format04d (bigEndian [number, number'])
        sensorCd := format04d (bigEndian [code, code'])
        funCd := str "PV"
        sensorValue := bigEndian [v3, v2, v1, v0]
        decimalPoint := bigEndian [point] } := rfl

/-- The packet of a device has its fields at their places. -/
theorem sensorPacket_eq {devInfo : Block UInt8 4} {letter letter' number number' : UInt8}
    (cells : devInfo.cells = [letter, letter', number, number']) (devType : DevType)
    (sensorCode : UInt16) (b0 b1 b2 b3 : UInt8) (more : List UInt8) :
    sensorPacket devInfo devType sensorCode (b0 :: b1 :: b2 :: b3 :: more) =
      packetBytes letter letter' number number' (sensorCode >>> 8).toUInt8 sensorCode.toUInt8
        b3 b2 b1 b0 (decimalPoint devType sensorCode) := by
  simp only [sensorPacket, cells]
  rfl

theorem bigEndian_decimalPoint (id : DeviceId) (sensorCode : UInt16) :
    bigEndian [decimalPoint id.devType sensorCode] =
      if sensorCode ∈ id.pressureCodes then 3 else 1 := by
  cases kind : id.isTk <;>
    simp only [decimalPoint, DeviceId.devType, DeviceId.pressureCodes, kind, if_true, if_false,
      Bool.false_eq_true, reduceCtorEq, List.mem_cons, List.not_mem_nil, or_false] <;>
    split <;> rfl

/-- The value that the PLC wrote with its low byte first. -/
def plcValue (b0 b1 b2 b3 : UInt8) : ℕ :=
  b0.toNat + 2 ^ 8 * b1.toNat + 2 ^ 16 * b2.toNat + 2 ^ 24 * b3.toNat

theorem bigEndian_value (b0 b1 b2 b3 : UInt8) :
    bigEndian [b3, b2, b1, b0] = plcValue b0 b1 b2 b3 := by
  simp only [bigEndian, List.foldl_cons, List.foldl_nil, plcValue]
  omega

/-- What a packet says: device, sensor code, function, value and decimal point. -/
def expectedReading (id : DeviceId) (sensorCode : UInt16) (value : ℕ) : Reading where
  equipmentId := id.text
  sensorCd := [digit (sensorCode.toNat / 1000), digit (sensorCode.toNat / 100 % 10),
    digit (sensorCode.toNat / 10 % 10), digit (sensorCode.toNat % 10)]
  funCd := str "PV"
  sensorValue := value
  decimalPoint := if sensorCode ∈ id.pressureCodes then 3 else 1

/-- **The server decodes what the gateway encodes**, whatever follows the packet. -/
theorem server_decodes_gateway {σ : Type} (documentUpsert : DocumentUpsert σ)
    (returns : ∀ database collection docKey pubTime db,
      (documentUpsert database collection docKey pubTime db).2 = true)
    (id : DeviceId) (after : List UInt8) (ends : isDigit (byteAt after 0) = false)
    (info : PlcCommInfo) (sensorCode : UInt16) (high : sensorCode ≤ 19)
    (b0 b1 b2 b3 : UInt8) (more : List UInt8) (position : ℕ)
    (fits : position + packetLen ≤ plcBuffSize) (trailing : List UInt8) (now : Now) (host : Str)
    (port : ℕ) (db : σ) :
    let made := makeSensorValue (initPlcCommInfo info (id.bytes ++ after)) sensorCode
      (b0 :: b1 :: b2 :: b3 :: more) position
    let packet := made.1.txBuf.read position made.2
    made.2 = 19 ∧
      (convertHex2decimal documentUpsert now (packet ++ trailing) host port db).1 =
        (.ok, reprBytes (packet ++ trailing),
          .meta_ (expectedReading id sensorCode (plcValue b0 b1 b2 b3)) host port now) := by
  obtain ⟨devType, devInfo⟩ := initPlcCommInfo_device info id ends
  generalize initPlcCommInfo info (id.bytes ++ after) = set at devType devInfo
  have value : sensorCode.toNat ≤ 19 := UInt16.le_iff_toNat_le.mp high
  rw [leBytes16_htons] at devInfo
  obtain ⟨first, second, letters⟩ :
      ∃ first second, (if id.isTk then tk else ts) = [first, second] := by
    split
    · exact ⟨_, _, rfl⟩
    · exact ⟨_, _, rfl⟩
  have equipmentId := equipmentId_eq id
  have number := bigEndian_halfWord (decimal id.digits.cells).toUInt16
  rw [letters] at devInfo equipmentId
  have code := bigEndian_halfWord sensorCode
  have point := bigEndian_decimalPoint id sensorCode
  rw [← devType] at point
  have packet := sensorPacket_eq devInfo set.devType sensorCode b0 b1 b2 b3 more
  have written := Block.read_write_self set.txBuf position (sensorPacket set.devInfo set.devType
    sensorCode (b0 :: b1 :: b2 :: b3 :: more)) (by rw [length_sensorPacket]; exact fits)
  rw [length_sensorPacket, packet] at written
  simp only [makeSensorValue_eq, packet, written, convertHex2decimal_eq]
  refine ⟨rfl, ?_⟩
  rw [if_pos (decodes_packetBytes ..), if_pos (returns _ _ _ _ _), readingOf_packetBytes, number,
    equipmentId, code, format04d_digits (by omega), point]
  simp only [expectedReading, bigEndian_value]

/-- The device TS0001. -/
def ts0001 : DeviceId where
  isTk := false
  digits := ⟨text "0001", rfl⟩
  decimal := by decide +kernel

/-- The memory before `InitPlcCommInfo`. -/
def blankInfo : PlcCommInfo where
  tcpOn := disable
  devInfo := .fill 4 0
  devType := .ts
  valid := disable
  txBuf := .fill plcBuffSize 0
  rxBuf := .fill plcBuffSize 0

/-- A pressure of TS0001, with two bytes behind its packet. -/
theorem server_decodes_gateway_ts0001 :
    let made := makeSensorValue (initPlcCommInfo blankInfo (ts0001.bytes ++ [0])) 7
      [0x10, 0x27, 0x00, 0x00] 0
    ∃ reading : Reading, reading.equipmentId = str "TS0001" ∧ reading.sensorValue = 10000 ∧
      reading.decimalPoint = 3 ∧
      (convertHex2decimal (fun _ _ _ _ db => (db, true)) ⟨0, [], []⟩
        (made.1.txBuf.read 0 made.2 ++ [0x0D, 0x0A]) [] 0 ()).1.2.2 =
          .meta_ reading [] 0 ⟨0, [], []⟩ := by
  intro made
  have decoded := (server_decodes_gateway (fun _ _ _ _ db => (db, true)) (fun _ _ _ _ _ => rfl)
    ts0001 [0] (by decide) blankInfo 7 (by decide) 0x10 0x27 0x00 0x00 [] 0 (by decide)
    [0x0D, 0x0A] ⟨0, [], []⟩ [] 0 ()).2
  exact ⟨expectedReading ts0001 7 (plcValue 0x10 0x27 0x00 0x00), by decide, by decide, by decide,
    congrArg (fun r => r.2.2) decoded⟩

end WhaleShark.EndToEnd

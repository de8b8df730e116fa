import WhaleShark.Foundations.Crc
import WhaleShark.Gateway.Common

/-!
# The check of a message

`CalCrc16` takes a message byte by byte and has a table for the low byte of its register. The table
holds what eight shifts make of each byte (`crcTable_eq`), so it computes the cyclic redundancy
check with the reflected polynomial `0xA001` (`calCrc16_eq_crc`), and a message that its check
follows, low byte first, has the check 0.
-/

set_option autoImplicit false

namespace WhaleShark

open Foundations

/-! ## `common.c` -/

/-- `crc_table` -/
def crcTable : Vector UInt16 256 :=
  ⟨#[
    0x0000, 0xC0C1, 0xC181, 0x0140, 0xC301, 0x03C0, 0x0280, 0xC241,
    0xC601, 0x06C0, 0x0780, 0xC741, 0x0500, 0xC5C1, 0xC481, 0x0440,
    0xCC01, 0x0CC0, 0x0D80, 0xCD41, 0x0F00, 0xCFC1, 0xCE81, 0x0E40,
    0x0A00, 0xCAC1, 0xCB81, 0x0B40, 0xC901, 0x09C0, 0x0880, 0xC841,
    0xD801, 0x18C0, 0x1980, 0xD941, 0x1B00, 0xDBC1, 0xDA81, 0x1A40,
    0x1E00, 0xDEC1, 0xDF81, 0x1F40, 0xDD01, 0x1DC0, 0x1C80, 0xDC41,
    0x1400, 0xD4C1, 0xD581, 0x1540, 0xD701, 0x17C0, 0x1680, 0xD641,
    0xD201, 0x12C0, 0x1380, 0xD341, 0x1100, 0xD1C1, 0xD081, 0x1040,
    0xF001, 0x30C0, 0x3180, 0xF141, 0x3300, 0xF3C1, 0xF281, 0x3240,
    0x3600, 0xF6C1, 0xF781, 0x3740, 0xF501, 0x35C0, 0x3480, 0xF441,
    0x3C00, 0xFCC1, 0xFD81, 0x3D40, 0xFF01, 0x3FC0, 0x3E80, 0xFE41,
    0xFA01, 0x3AC0, 0x3B80, 0xFB41, 0x3900, 0xF9C1, 0xF881, 0x3840,
    0x2800, 0xE8C1, 0xE981, 0x2940, 0xEB01, 0x2BC0, 0x2A80, 0xEA41,
    0xEE01, 0x2EC0, 0x2F80, 0xEF41, 0x2D00, 0xEDC1, 0xEC81, 0x2C40,
    0xE401, 0x24C0, 0x2580, 0xE541, 0x2700, 0xE7C1, 0xE681, 0x2640,
    0x2200, 0xE2C1, 0xE381, 0x2340, 0xE101, 0x21C0, 0x2080, 0xE041,
    0xA001, 0x60C0, 0x6180, 0xA141, 0x6300, 0xA3C1, 0xA281, 0x6240,
    0x6600, 0xA6C1, 0xA781, 0x6740, 0xA501, 0x65C0, 0x6480, 0xA441,
    0x6C00, 0xACC1, 0xAD81, 0x6D40, 0xAF01, 0x6FC0, 0x6E80, 0xAE41,
    0xAA01, 0x6AC0, 0x6B80, 0xAB41, 0x6900, 0xA9C1, 0xA881, 0x6840,
    0x7800, 0xB8C1, 0xB981, 0x7940, 0xBB01, 0x7BC0, 0x7A80, 0xBA41,
    0xBE01, 0x7EC0, 0x7F80, 0xBF41, 0x7D00, 0xBDC1, 0xBC81, 0x7C40,
    0xB401, 0x74C0, 0x7580, 0xB541, 0x7700, 0xB7C1, 0xB681, 0x7640,
    0x7200, 0xB2C1, 0xB381, 0x7340, 0xB101, 0x71C0, 0x7080, 0xB041,
    0x5000, 0x90C1, 0x9181, 0x5140, 0x9301, 0x53C0, 0x5280, 0x9241,
    0x9601, 0x56C0, 0x5780, 0x9741, 0x5500, 0x95C1, 0x9481, 0x5440,
    0x9C01, 0x5CC0, 0x5D80, 0x9D41, 0x5F00, 0x9FC1, 0x9E81, 0x5E40,
    0x5A00, 0x9AC1, 0x9B81, 0x5B40, 0x9901, 0x59C0, 0x5880, 0x9841,
    0x8801, 0x48C0, 0x4980, 0x8941, 0x4B00, 0x8BC1, 0x8A81, 0x4A40,
    0x4E00, 0x8EC1, 0x8F81, 0x4F40, 0x8D01, 0x4DC0, 0x4C80, 0x8C41,
    0x4400, 0x84C1, 0x8581, 0x4540, 0x8701, 0x47C0, 0x4680, 0x8641,
    0x8201, 0x42C0, 0x4380, 0x8341, 0x4100, 0x81C1, 0x8081, 0x4040], by decide +kernel⟩

/-- What `CalCrc16` does with a byte. -/
def crcStep (crcWord : UInt16) (b : UInt8) : UInt16 :=
  let temp := b ^^^ crcWord.toUInt8
  (crcWord >>> 8) ^^^ crcTable.get temp.toFin

/-- `CalCrc16` -/
def calCrc16 (pBuff : List UInt8) : UInt16 := pBuff.foldl crcStep 0xffff

/-! ## What it computes -/

/-- The reflected polynomial. -/
def crcPoly : BitVec 16 := 0xA001

/-- The bits of a message as they are taken. -/
def messageBits (p : List UInt8) : List Bool := p.flatMap fun b => Crc.lowBits b.toBitVec

/-- The cyclic redundancy check of a message, bit by bit. -/
def crc16 (p : List UInt8) : BitVec 16 := Crc.crc crcPoly 0xFFFF (messageBits p)

/-- Each word of the table is what eight shifts make of its index. -/
theorem crcTable_eq (i : Fin 256) :
    (crcTable.get i).toBitVec = Crc.table crcPoly (BitVec.ofFin i : BitVec 8) := by
  revert i
  decide +kernel

/-- A byte is taken as its bits are. -/
theorem toBitVec_crcStep (c : UInt16) (b : UInt8) :
    (crcStep c b).toBitVec = Crc.crc crcPoly c.toBitVec (Crc.lowBits b.toBitVec) := by
  have index : BitVec.ofFin (b ^^^ c.toUInt8).toFin = c.toBitVec.setWidth 8 ^^^ b.toBitVec := by
    rw [BitVec.xor_comm]
    rfl
  rw [Crc.crc_lowBits_table crcPoly (by decide), ← index, ← crcTable_eq, BitVec.xor_comm]
  rfl

theorem toBitVec_foldl_crcStep (p : List UInt8) (c : UInt16) :
    (p.foldl crcStep c).toBitVec = Crc.crc crcPoly c.toBitVec (messageBits p) := by
  induction p generalizing c with
  | nil => rfl
  | cons b p ih =>
      have bits : messageBits (b :: p) = Crc.lowBits b.toBitVec ++ messageBits p :=
        List.flatMap_cons
      rw [List.foldl_cons, ih, toBitVec_crcStep, bits, Crc.crc_append]

/-- The bits of a half word as it lies in memory. -/
theorem messageBits_leBytes16 (x : UInt16) :
    messageBits (leBytes16 x) = Crc.lowBits x.toBitVec := by
  have high : (x >>> 8).toUInt8.toBitVec = (x.toBitVec >>> 8).setWidth 8 := rfl
  rw [leBytes16, messageBits, List.flatMap_cons, List.flatMap_cons, List.flatMap_nil,
    List.append_nil, high]
  exact (Crc.lowBits_add (j := 8) (k := 8) x.toBitVec).symm

/-- **`CalCrc16` is the cyclic redundancy check**, and a message that its check follows has the
check 0. -/
theorem calCrc16_eq_crc (p : List UInt8) :
    (calCrc16 p).toBitVec = crc16 p ∧ calCrc16 (p ++ leBytes16 (calCrc16 p)) = 0 := by
  have whole (p : List UInt8) : (calCrc16 p).toBitVec = crc16 p := toBitVec_foldl_crcStep p 0xffff
  refine ⟨whole p, UInt16.toBitVec_inj.mp ?_⟩
  have split : messageBits (p ++ leBytes16 (calCrc16 p)) =
      messageBits p ++ Crc.lowBits (calCrc16 p).toBitVec := by
    rw [← messageBits_leBytes16, messageBits, List.flatMap_append, ← messageBits, ← messageBits]
  rw [whole, crc16, split, Crc.crc_append, whole p, crc16, Crc.crc_own]
  rfl

example : calCrc16 [0x31, 0x32, 0x33, 0x34, 0x35, 0x36, 0x37, 0x38, 0x39] = 0x4B37 := by
  decide +kernel

end WhaleShark

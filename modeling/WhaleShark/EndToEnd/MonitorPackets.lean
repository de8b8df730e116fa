import WhaleShark.Monitor.MakePacket
import WhaleShark.Server.Layouts

/-!
# The server and the packets of the instrument monitor

The monitor writes a value in two bytes, so that its packets end at byte 16. The server looks for an
end there, and then reads a value of four bytes and one field more, which such a packet does not
have. So it decodes no packet of the monitor as it was meant (`monitor_packets_are_not_decoded`).
Only a function name with a character beyond a byte makes a packet that is long enough, and such a
name is none that the server can return.
-/

set_option autoImplicit false

namespace WhaleShark.EndToEnd

open Server Monitor

/-- A facility name: two printable ASCII characters. -/
structure FacilityName where
  first : Char
  second : Char
  printable : ∀ c ∈ [first, second], 0x20 ≤ c.toNat ∧ c.toNat ≤ 0x7E

/-- A facility id: two decimal digits. -/
structure FacilityId where
  tens : ℕ
  ones : ℕ
  tens_lt : tens < 10
  ones_lt : ones < 10

def FacilityName.text (name : FacilityName) : Str := [name.first, name.second]

/-- The two slices of the name. -/
def FacilityName.slices (name : FacilityName) : Str × Str := ([name.first], [name.second])

def FacilityId.text (id : FacilityId) : Str := [digit id.tens, digit id.ones]

/-- The two slices of the id. -/
def FacilityId.slices (id : FacilityId) : Str × Str := ([digit id.tens], [digit id.ones])

/-- What the server makes of a packet of the monitor is what the monitor was given: `OK`, the name
with the id in four digits, the function, the value and the decimal point. -/
def DecodesAsMade {σ : Type} (documentUpsert : DocumentUpsert σ) (now : Now) (host : Str) (port : ℕ)
    (db : σ) (name : FacilityName) (id : FacilityId) (fn : Str) (fv dp : ℕ) : Prop :=
  ∃ packet shown reading, makePacket name.slices id.slices fn (.int fv) dp = some packet ∧
    (convertHex2decimal documentUpsert now packet host port db).1 =
      (.ok, shown, .meta_ reading host port now) ∧
    reading.equipmentId = name.text ++ zeroPad 4 id.text ∧ reading.funCd = fn ∧
    reading.sensorValue = fv ∧ reading.decimalPoint = dp

/-- A digit is read as its value. -/
theorem intOf_digit {d : ℕ} (small : d < 10) : intOf [digit d] = some d := by
  interval_cases d <;> decide +kernel

/-- The two characters of a name are a byte each. -/
theorem fromHex_name (name : FacilityName) :
    fromHex (formatX name.first.toNat ++ formatX name.second.toNat) =
      some [name.first.toNat.toUInt8, name.second.toNat.toUInt8] := by
  have two {n : ℕ} (low : 16 ≤ n) : formatX n = format02x n := by
    have more : ¬ (formatX n).length ≤ 1 := by
      rw [length_formatX_le (by decide)]
      omega
    have none_ : 2 - (formatX n).length = 0 := by omega
    rw [format02x, zeroPad, ← formatX, none_]
    rfl
  obtain ⟨low0, high0⟩ := name.printable name.first (by simp)
  obtain ⟨low1, high1⟩ := name.printable name.second (by simp)
  rw [two (by omega), two (by omega)]
  exact fromHex_two (by omega) (by omega)

/-- The bytes of a function name are as many as the pairs of its hexadecimal digits. -/
theorem length_code {f0 f1 : Char} {code : Bytes}
    (read : fromHex (formatX f0.toNat ++ formatX f1.toNat) = some code) :
    (formatX f0.toNat).length + (formatX f1.toNat).length = 2 * code.length := by
  have pairs := fromHex_of_digits (digits_append f0.toNat f1.toNat)
  split at pairs
  · obtain ⟨p, same, count⟩ := pairs
    obtain rfl : p = code := Option.some.inj (same.symm.trans read)
    rw [← List.length_append]
    exact count
  · exact absurd (pairs.symm.trans read) (by simp)

/-- Only a packet that decodes is returned with `OK`, as the reading of its fields. -/
theorem decodes_of_ok {σ : Type} {documentUpsert : DocumentUpsert σ} {now : Now} {host : Str}
    {port : ℕ} {db : σ} {p : Bytes} {packet : Str} {reading : Reading}
    (ok : (convertHex2decimal documentUpsert now p host port db).1 =
      (.ok, packet, .meta_ reading host port now)) : Decodes p ∧ readingOf p = reading := by
  rw [convertHex2decimal_eq] at ok
  by_cases decodes : Decodes p
  · rw [if_pos decodes] at ok
    dsimp only at ok
    split at ok
    · simp only [Prod.mk.injEq, true_and, ModbusDict.meta_.injEq, and_true] at ok
      exact ⟨decodes, ok.2⟩
    · simp at ok
  · rw [if_neg decodes] at ok
    simp at ok

/-- **No packet of the monitor is decoded as it was made.** -/
theorem monitor_packets_are_not_decoded {σ : Type} (documentUpsert : DocumentUpsert σ) (now : Now)
    (host : Str) (port : ℕ) (db : σ) (name : FacilityName) (id : FacilityId) (f0 f1 : Char)
    {fv dp : ℕ} (half : fv < 65536) (byte_ : dp < 256) :
    ¬ DecodesAsMade documentUpsert now host port db name id [f0, f1] fv dp := by
  rintro ⟨packet, shown, reading, made, decoded, -, funCd, -, -⟩
  have name0 : ord name.slices.1 = some name.first.toNat := rfl
  have name1 : ord name.slices.2 = some name.second.toNat := rfl
  have id0 : intOf id.slices.1 = some id.tens := intOf_digit id.tens_lt
  have id1 : intOf id.slices.2 = some id.ones := intOf_digit id.ones_lt
  have looks := makePacket_eq name0 name1 id0 id1 f0 f1 half byte_
  rw [looks, fromHex_name, Option.bind_some] at made
  obtain ⟨code, read, rfl⟩ := Option.map_eq_some_iff.mp made
  have count := length_code read
  obtain ⟨decodes, rfl⟩ := decodes_of_ok decoded
  -- the packet is long enough only if the function takes three bytes
  have long := decodes.2.1
  simp only [List.length_append, List.length_cons, List.length_nil] at long
  -- and what the server returns as the function has characters of a byte each
  have letters : ∀ b b' : UInt8, [chr b.toNat, chr b'.toNat] = [f0, f1] → code.length ≤ 2 := by
    intro b b' same
    obtain ⟨rfl, rfl⟩ : chr b.toNat = f0 ∧ chr b'.toNat = f1 := by simpa using same
    have small (b : UInt8) : (formatX (chr b.toNat).toNat).length ≤ 2 := by
      rw [toNat_chr b.toNat_lt, length_formatX_le (by decide)]
      exact b.toNat_lt
    have first := small b
    have second := small b'
    omega
  have short := letters _ _ funCd
  omega

/-- `TS` -/
def facilityTs : FacilityName where
  first := 'T'
  second := 'S'
  printable := List.forall_mem_cons.mpr ⟨by decide, List.forall_mem_singleton.mpr (by decide)⟩

/-- `01` -/
def facility01 : FacilityId := ⟨0, 1, by decide, by decide⟩

theorem monitor_packets_are_not_decoded_ts :
    ¬ DecodesAsMade noLog aTime [] 0 () facilityTs facility01 ['p', 'v'] 250 1 :=
  monitor_packets_are_not_decoded noLog aTime [] 0 () facilityTs facility01 'p' 'v' (by decide)
    (by decide)

/-- **A packet of the monitor is refused.** It has 17 bytes. -/
theorem monitor_packet_is_refused :
    (∃ packet,
      makePacket facilityTs.slices facility01.slices ['p', 'v'] (.int 250) 1 = some packet ∧
      packet.length = 17 ∧ (convertHex2decimal noLog aTime packet [] 0 ()).1.1 = .er) ∧
    ¬ DecodesAsMade noLog aTime [] 0 () facilityTs facility01 ['p', 'v'] 250 1 := by
  have made : makePacket facilityTs.slices facility01.slices ['p', 'v'] (.int 250) 1 =
      some [2, 0, 0, 0, 0, 84, 83, 0, 1, 0, 9, 112, 118, 0, 250, 1, 3] := by decide +kernel
  have refused : (convertHex2decimal noLog aTime
      [2, 0, 0, 0, 0, 84, 83, 0, 1, 0, 9, 112, 118, 0, 250, 1, 3] [] 0 ()).1.1 = .er := by
    rw [convertHex2decimal_eq, if_neg (by decide)]
  refine ⟨⟨_, made, rfl, refused⟩, ?_⟩
  rintro ⟨packet, shown, reading, made', decoded, -⟩
  obtain rfl := Option.some.inj (made.symm.trans made')
  rw [decoded] at refused
  cases refused

end WhaleShark.EndToEnd

import WhaleShark.Server.Python

/-!
# Decoding a packet

`convert_hex2decimal` looks at the bytes of one packet at fixed places. It raises where a byte
it looks at is missing, and what it raises makes the packet one that is refused. So a packet is
decoded exactly when it begins with `STX`, has 18 bytes, and has an `ETX` at one of the two places
where a packet may end (`Decodes`), and the reading is then a function of bytes 5 to 17
(`convertHex2decimal_eq`).
-/

set_option autoImplicit false

namespace WhaleShark.Server

/-- `'OK'` and `'ER'` -/
inductive Status where
  | ok
  | er
  deriving DecidableEq, Repr

def Status.text : Status → Str
  | .ok => str "OK"
  | .er => str "ER"

/-- What a packet says. -/
structure Reading where
  equipmentId : Str
  sensorCd : Str
  funCd : Str
  sensorValue : ℕ
  decimalPoint : ℕ
  deriving DecidableEq

/-- When a packet is decoded: `time.time()`, the day as the log's key, and the time as its
entry. -/
structure Now where
  msTime : ℕ
  docKey : Str
  pubTime : Str
  deriving DecidableEq

/-- `modbus_dict`. Before a packet is decoded, every entry is the empty text. -/
inductive ModbusDict where
  | empty
  | meta_ (reading : Reading) (ip : Str) (port : ℕ) (now : Now)
  deriving DecidableEq

/-- `MongoMgr.document_upsert`, on the state of the database. The flag says that it returned. -/
abbrev DocumentUpsert (σ : Type) :=
  (database collection docKey pubTime : Str) → σ → σ × Bool

/-- The condition under which a packet is decoded. `none` says that a byte is missing. -/
def hasMarks (p : Bytes) : Option Bool := do
  let b0 ← p[0]?
  if b0 ≠ 2 then return false
  let b16 ← p[16]?
  if b16 = 3 then return true
  let b18 ← p[18]?
  return b18 == 3

/-- The fields of a packet. `none` says that a byte is missing. -/
def readFields (p : Bytes) : Option Reading := do
  let b5 ← p[5]?
  let b6 ← p[6]?
  let group := [chr b5.toNat, chr b6.toNat]
  let b7 ← p[7]?
  let b8 ← p[8]?
  let groupCode ← intHex ('0' :: 'x' :: format02x b7.toNat ++ format02x b8.toNat)
  let groupCode := format04d groupCode
  let b9 ← p[9]?
  let b10 ← p[10]?
  let sensorCode ← intHex ('0' :: 'x' :: format02x b9.toNat ++ format02x b10.toNat)
  let sensorCode := format04d sensorCode
  let b11 ← p[11]?
  let b12 ← p[12]?
  let fn := [chr b11.toNat, chr b12.toNat]
  let b13 ← p[13]?
  let b14 ← p[14]?
  let b15 ← p[15]?
  let b16 ← p[16]?
  let fv := '0' :: 'x' :: format02x b13.toNat ++ format02x b14.toNat ++ format02x b15.toNat ++
    format02x b16.toNat
  let b17 ← p[17]?
  let decimalPoint ← intHex ('0' :: 'x' :: format02x b17.toNat)
  let fv ← intHex fv
  return {
    equipmentId := group ++ groupCode
    sensorCd := sensorCode
    funCd := fn
    sensorValue := fv
    decimalPoint := decimalPoint }

/-- `convert_hex2decimal`, and what becomes of the database. -/
def convertHex2decimal {σ : Type} (documentUpsert : DocumentUpsert σ) (now : Now) (p : Bytes)
    (host : Str) (port : ℕ) (db : σ) : (Status × Str × ModbusDict) × σ :=
  match hasMarks p with
  | some true =>
      match readFields p with
      | none => ((.er, reprBytes p, .empty), db)
      | some reading =>
          let (db, returned) := documentUpsert (str "facility") reading.equipmentId now.docKey
            now.pubTime db
          if returned then ((.ok, reprBytes p, .meta_ reading host port now), db)
          else ((.er, reprBytes p, .empty), db)
  | _ => ((.er, reprBytes p, .empty), db)

/-! ## The packets that are decoded -/

/-- The packet begins with `STX`, goes as far as the last field, and has an `ETX` at one of the
two places for it. -/
def Decodes (p : Bytes) : Prop :=
  p[0]? = some 2 ∧ 18 ≤ p.length ∧ (p[16]? = some 3 ∨ p[18]? = some 3)

instance (p : Bytes) : Decidable (Decodes p) := inferInstanceAs (Decidable (_ ∧ _ ∧ _))

/-- A byte of the packet. -/
def byte (p : Bytes) (i : ℕ) : UInt8 := p.getD i 0

theorem getElem?_eq_byte {p : Bytes} {i : ℕ} (inside : i < p.length) : p[i]? = some (byte p i) := by
  rw [byte, List.getD_eq_getElem?_getD, List.getElem?_eq_getElem inside, Option.getD_some]

/-- The reading of the fields at their places. -/
def readingOf (p : Bytes) : Reading where
  equipmentId := [chr (byte p 5).toNat, chr (byte p 6).toNat] ++
    format04d (bigEndian [byte p 7, byte p 8])
  sensorCd := format04d (bigEndian [byte p 9, byte p 10])
  funCd := [chr (byte p 11).toNat, chr (byte p 12).toNat]
  sensorValue := bigEndian [byte p 13, byte p 14, byte p 15, byte p 16]
  decimalPoint := bigEndian [byte p 17]

theorem intHex_one (a : UInt8) : intHex ('0' :: 'x' :: format02x a.toNat) = some (bigEndian [a]) := by
  have written := intHex_bytes (p := [a]) (by simp)
  rwa [hexText, List.flatMap_cons, List.flatMap_nil, List.append_nil] at written

theorem intHex_two (a b : UInt8) :
    intHex ('0' :: 'x' :: format02x a.toNat ++ format02x b.toNat) = some (bigEndian [a, b]) := by
  have written := intHex_bytes (p := [a, b]) (by simp)
  rwa [hexText, List.flatMap_cons, List.flatMap_cons, List.flatMap_nil, List.append_nil] at written

theorem intHex_four (a b c d : UInt8) :
    intHex ('0' :: 'x' :: format02x a.toNat ++ format02x b.toNat ++ format02x c.toNat ++
      format02x d.toNat) = some (bigEndian [a, b, c, d]) := by
  have written := intHex_bytes (p := [a, b, c, d]) (by simp)
  rw [hexText, List.flatMap_cons, List.flatMap_cons, List.flatMap_cons, List.flatMap_cons,
    List.flatMap_nil, List.append_nil] at written
  simpa only [List.cons_append, List.append_assoc] using written

/-- The fields are read when the packet goes as far as the last of them. -/
theorem readFields_eq (p : Bytes) :
    readFields p = if 18 ≤ p.length then some (readingOf p) else none := by
  split
  · rename_i long
    have at_ (i : ℕ) (field : i < 18) : p[i]? = some (byte p i) := getElem?_eq_byte (by omega)
    simp only [readFields, at_ 5 (by decide), at_ 6 (by decide), at_ 7 (by decide),
      at_ 8 (by decide), at_ 9 (by decide), at_ 10 (by decide), at_ 11 (by decide),
      at_ 12 (by decide), at_ 13 (by decide), at_ 14 (by decide), at_ 15 (by decide),
      at_ 16 (by decide), at_ 17 (by decide), Option.bind_eq_bind, Option.bind_some, intHex_one,
      intHex_two, intHex_four]
    rfl
  · rename_i short
    have missing : p[17]? = none := List.getElem?_eq_none (by omega)
    simp only [readFields, missing, Option.bind_eq_bind, Option.bind_none, Option.bind_fun_none]

/-- The condition is met by a packet that begins with `STX` and has an `ETX` at one of the two
places; where the first place is missing, it raises. -/
theorem hasMarks_eq_true {p : Bytes} : hasMarks p = some true ↔
    p[0]? = some 2 ∧ (p[16]? = some 3 ∨ p[18]? = some 3) := by
  cases b0 : p[0]? with
  | none => simp [hasMarks, b0]
  | some first =>
      by_cases stx : first = 2
      · cases b16 : p[16]? with
        | none =>
            have short : p[18]? = none := by
              rw [List.getElem?_eq_none_iff] at b16 ⊢
              omega
            simp [hasMarks, b0, b16, short, stx]
        | some middle =>
            by_cases etx : middle = 3
            · simp [hasMarks, b0, b16, stx, etx]
            · cases b18 : p[18]? with
              | none => simp [hasMarks, b0, b16, b18, stx, etx]
              | some last => simp [hasMarks, b0, b16, b18, stx, etx]
      · simp [hasMarks, b0, stx]

/-- **What is decoded, and how.** A packet that decodes gives the reading of its fields, when the
log takes it; any other packet is refused. -/
theorem convertHex2decimal_eq {σ : Type} (documentUpsert : DocumentUpsert σ) (now : Now) (p : Bytes)
    (host : Str) (port : ℕ) (db : σ) :
    convertHex2decimal documentUpsert now p host port db =
      if Decodes p then
        let logged := documentUpsert (str "facility") (readingOf p).equipmentId now.docKey
          now.pubTime db
        if logged.2 then ((.ok, reprBytes p, .meta_ (readingOf p) host port now), logged.1)
        else ((.er, reprBytes p, .empty), logged.1)
      else ((.er, reprBytes p, .empty), db) := by
  unfold convertHex2decimal
  by_cases marks : hasMarks p = some true
  · have known := hasMarks_eq_true.mp marks
    simp only [marks, readFields_eq]
    by_cases long : 18 ≤ p.length
    · simp only [if_pos long, if_pos (show Decodes p from ⟨known.1, long, known.2⟩)]
    · simp only [if_neg long, if_neg (show ¬ Decodes p from fun decodes => long decodes.2.1)]
  · have refused : ¬ Decodes p := fun decodes =>
      marks (hasMarks_eq_true.mpr ⟨decodes.1, decodes.2.2⟩)
    rw [if_neg refused]
    split
    · rename_i met
      exact absurd met marks
    · rfl

end WhaleShark.Server

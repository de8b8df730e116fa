import WhaleShark.Server.Convert

/-!
# The two layouts of a frame

`convert_hex2decimal` looks for the `ETX` at byte 16 and at byte 18, the ends of a frame whose value
has two bytes and of one whose value has four. The fields are read at the places of the long layout
in either case. So a frame of the long layout is decoded as it should be, and one of the short layout
never is: it is refused when it ends with its `ETX`, and otherwise the `ETX` is taken for the last
byte of the value (`accepts_layouts_iff`).
-/

set_option autoImplicit false

namespace WhaleShark.Server

/-- What a frame says: a value and the place of its decimal point. -/
inductive FrameSays (p : Bytes) : ℕ → ℕ → Prop where
  | long (stx : p[0]? = some 2) (etx : p[18]? = some 3) :
      FrameSays p (bigEndian [byte p 13, byte p 14, byte p 15, byte p 16]) (bigEndian [byte p 17])
  | short (stx : p[0]? = some 2) (etx : p[16]? = some 3) (notLong : p[18]? ≠ some 3) :
      FrameSays p (bigEndian [byte p 13, byte p 14]) (bigEndian [byte p 15])

/-- `'OK'` is returned, with this value and decimal point. -/
def ReturnsValue (result : Status × Str × ModbusDict) (v d : ℕ) : Prop :=
  result.1 = .ok ∧ ∃ reading ip port now, result.2.2 = .meta_ reading ip port now ∧
    reading.sensorValue = v ∧ reading.decimalPoint = d

/-- What is returned is what the frame says, and `'ER'` where there is no frame. -/
structure AcceptsLayouts (p : Bytes) (result : Status × Str × ModbusDict) : Prop where
  accepted : ∀ v d, ReturnsValue result v d ↔ FrameSays p v d
  refused : (∀ v d, ¬ FrameSays p v d) → result.1 = .er

/-- The frame has the short layout. -/
def IsShort (p : Bytes) : Prop := p[0]? = some 2 ∧ p[16]? = some 3 ∧ p[18]? ≠ some 3

instance (p : Bytes) : Decidable (IsShort p) := inferInstanceAs (Decidable (_ ∧ _ ∧ _))

/-- A frame of the long layout is decoded. -/
theorem decodes_of_long {p : Bytes} (stx : p[0]? = some 2) (etx : p[18]? = some 3) : Decodes p := by
  have long : 18 < p.length := (List.getElem?_eq_some_iff.mp etx).1
  exact ⟨stx, by omega, .inr etx⟩

/-- Where the frame is not short, what it says is what is decoded. -/
theorem frameSays_iff {p : Bytes} (notShort : ¬ IsShort p) (v d : ℕ) :
    FrameSays p v d ↔
      Decodes p ∧ (readingOf p).sensorValue = v ∧ (readingOf p).decimalPoint = d := by
  constructor
  · intro said
    cases said with
    | long stx etx => exact ⟨decodes_of_long stx etx, rfl, rfl⟩
    | short stx etx notLong => exact absurd ⟨stx, etx, notLong⟩ notShort
  · rintro ⟨⟨stx, -, middle | etx⟩, rfl, rfl⟩
    · by_cases etx : p[18]? = some 3
      · exact .long stx etx
      · exact absurd ⟨stx, middle, etx⟩ notShort
    · exact .long stx etx

/-- The value that is read from a short frame ends with its `ETX`, and is larger than the frame
says. -/
theorem short_lt_read (a b c d : UInt8) (etx : d = 3) :
    bigEndian [a, b] < bigEndian [a, b, c, d] := by
  subst etx
  have three : (3 : UInt8).toNat = 3 := rfl
  simp only [bigEndian, List.foldl_cons, List.foldl_nil, three]
  omega

section

variable {σ : Type} {documentUpsert : DocumentUpsert σ} {now : Now} {host : Str} {port : ℕ} {db : σ}

/-- Where the log takes every entry, what is decoded is returned. -/
theorem returnsValue_iff
    (returns : ∀ database collection docKey pubTime db,
      (documentUpsert database collection docKey pubTime db).2 = true) (p : Bytes) (v d : ℕ) :
    ReturnsValue (convertHex2decimal documentUpsert now p host port db).1 v d ↔
      Decodes p ∧ (readingOf p).sensorValue = v ∧ (readingOf p).decimalPoint = d := by
  rw [convertHex2decimal_eq]
  by_cases decodes : Decodes p
  · simp only [if_pos decodes, returns, if_true]
    constructor
    · rintro ⟨-, reading, ip, port, now, same, value, point⟩
      cases same
      exact ⟨decodes, value, point⟩
    · rintro ⟨-, value, point⟩
      exact ⟨rfl, readingOf p, host, port, now, rfl, value, point⟩
  · rw [if_neg decodes]
    constructor
    · rintro ⟨ok, -⟩
      cases ok
    · exact fun both => absurd both.1 decodes

/-- **A packet is decoded as its layout says exactly when it is not a frame of the short layout.** -/
theorem accepts_layouts_iff
    (returns : ∀ database collection docKey pubTime db,
      (documentUpsert database collection docKey pubTime db).2 = true) (p : Bytes) :
    AcceptsLayouts p (convertHex2decimal documentUpsert now p host port db).1 ↔
      ¬ (p[0]? = some 2 ∧ p[16]? = some 3 ∧ p[18]? ≠ some 3) := by
  constructor
  · rintro ⟨accepted, -⟩ ⟨stx, etx, notLong⟩
    have said := (accepted _ _).mpr (.short stx etx notLong)
    obtain ⟨-, value, -⟩ := (returnsValue_iff returns p _ _).mp said
    have last : byte p 16 = 3 := by rw [byte, List.getD_eq_getElem?_getD, etx, Option.getD_some]
    have less := short_lt_read (byte p 13) (byte p 14) (byte p 15) (byte p 16) last
    exact Nat.ne_of_gt less value
  · intro notShort
    refine ⟨fun v d => ?_, fun noFrame => ?_⟩
    · rw [returnsValue_iff returns, frameSays_iff notShort]
    · have refused : ¬ Decodes p := fun decodes =>
        noFrame _ _ ((frameSays_iff notShort _ _).mpr ⟨decodes, rfl, rfl⟩)
      rw [convertHex2decimal_eq, if_neg refused]

end

/-- A log that takes every entry, and keeps none. -/
def noLog : DocumentUpsert Unit := fun _ _ _ _ db => (db, true)

/-- Noon. -/
def aTime : Now := ⟨0, str "2020-12-10", str "2020-12-10 12:00:00"⟩

/-- Sensor 9 of TS0001: 330, with one decimal. -/
def longFrame : Bytes := [2, 0, 0, 0, 0, 84, 83, 0, 1, 0, 9, 80, 86, 0, 0, 1, 74, 1, 3]

/-- The same with a value of two bytes. -/
def shortFrame : Bytes := [2, 0, 0, 0, 0, 84, 83, 0, 1, 0, 9, 80, 86, 1, 74, 1, 3]

theorem accepts_layouts_iff_long :
    AcceptsLayouts longFrame (convertHex2decimal noLog aTime longFrame [] 0 ()).1 ∧
      FrameSays longFrame 330 1 :=
  ⟨(accepts_layouts_iff (fun _ _ _ _ _ => rfl) longFrame).mpr (by decide), .long rfl rfl⟩

/-- **A frame of the short layout is refused.** -/
theorem short_frame_is_refused : FrameSays shortFrame 330 1 ∧
    (convertHex2decimal noLog aTime shortFrame [] 0 ()).1.1 = .er ∧
    ¬ AcceptsLayouts shortFrame (convertHex2decimal noLog aTime shortFrame [] 0 ()).1 := by
  have said : FrameSays shortFrame 330 1 := .short rfl rfl (by decide)
  have refused : (convertHex2decimal noLog aTime shortFrame [] 0 ()).1.1 = .er := by
    rw [convertHex2decimal_eq, if_neg (by decide)]
  refine ⟨said, refused, fun accepts => ?_⟩
  have ok := ((accepts.accepted 330 1).mpr said).1
  rw [refused] at ok
  cases ok

end WhaleShark.Server

import WhaleShark.Server.Agent

/-!
# The day of a reading

The server makes the key of a day from the numbers of the date, as they are; the agent takes it
from the text of the time, where they are padded with zeros. The two agree exactly for the dates
whose month and day have two digits, and the year four (`dayOf_pubTimeOf_iff`). For these the agent
finds the document of the server and marks the entry of the reading, and nothing else
(`reading_is_marked_iff`); for any other date it does not find the document
(`january_is_not_marked`).
-/

set_option autoImplicit false

namespace WhaleShark.Server

/-! ## Dates and times -/

def isLeap (year : ℕ) : Bool := (year % 4 == 0 && year % 100 != 0) || year % 400 == 0

def daysInMonth (year month : ℕ) : ℕ :=
  if month = 2 then if isLeap year then 29 else 28
  else if month ∈ [4, 6, 9, 11] then 30
  else 31

/-- `datetime` -/
structure DateTime where
  year : ℕ
  month : ℕ
  day : ℕ
  hour : ℕ
  minute : ℕ
  second : ℕ
  microsecond : ℕ
  year_valid : 1 ≤ year ∧ year ≤ 9999
  month_valid : 1 ≤ month ∧ month ≤ 12
  day_valid : 1 ≤ day ∧ day ≤ daysInMonth year month
  hour_valid : hour < 24
  minute_valid : minute < 60
  second_valid : second < 60
  microsecond_valid : microsecond < 1000000

/-- `'%02d' % n` -/
def format02d (n : ℕ) : Str := zeroPad 2 (Nat.toDigits 10 n)

/-- `'%06d' % n` -/
def format06d (n : ℕ) : Str := zeroPad 6 (Nat.toDigits 10 n)

/-- The date in `str(t)`. -/
def DateTime.date (t : DateTime) : Str :=
  format04d t.year ++ '-' :: format02d t.month ++ '-' :: format02d t.day

/-- The time in `str(t)`. The microseconds are left out when they are 0. -/
def DateTime.time (t : DateTime) : Str :=
  format02d t.hour ++ ':' :: format02d t.minute ++ ':' :: format02d t.second ++
    if t.microsecond = 0 then [] else '.' :: format06d t.microsecond

/-- `str(t)` -/
def DateTime.text (t : DateTime) : Str := t.date ++ ' ' :: t.time

/-- `s.replace('.', 'ms')` -/
def replaceDots (s : Str) : Str := s.flatMap fun c => if c = '.' then ['m', 's'] else [c]

/-- `str(pub_time).replace('.', 'ms')` -/
def pubTimeOf (t : DateTime) : Str := replaceDots t.text

/-- `'%s-%s-%s' % (pub_time.year, pub_time.month, pub_time.day)` -/
def docKeyOf (t : DateTime) : Str :=
  Nat.toDigits 10 t.year ++ '-' :: Nat.toDigits 10 t.month ++ '-' :: Nat.toDigits 10 t.day

/-- The clock of `convert_hex2decimal`. The two times are read one after the other. -/
def nowAt (msTime : ℕ) (t : DateTime) : Now := ⟨msTime, docKeyOf t, pubTimeOf t⟩

/-! ## The two keys -/

/-- A character of a date. -/
def InDate (c : Char) : Prop := c.isDigit ∨ c = '-'

theorem inDate_zeroPad (width n : ℕ) : ∀ c ∈ zeroPad width (Nat.toDigits 10 n), InDate c := by
  intro c member
  rcases List.mem_append.mp member with zero | digit
  · rw [(List.mem_replicate.mp zero).2]
    exact .inl (by decide)
  · exact .inl (Nat.isDigit_of_mem_toDigits (by decide) (by decide) digit)

theorem inDate_date (t : DateTime) : ∀ c ∈ t.date, InDate c := by
  intro c member
  simp only [DateTime.date, List.mem_append, List.mem_cons] at member
  rcases member with (year | rfl | month) | rfl | day
  · exact inDate_zeroPad 4 t.year c year
  · exact .inr rfl
  · exact inDate_zeroPad 2 t.month c month
  · exact .inr rfl
  · exact inDate_zeroPad 2 t.day c day

theorem InDate.ne {c d : Char} (inside : InDate c) (outside : ¬ InDate d) : c ≠ d := by
  rintro rfl
  exact outside inside

/-- **The agent takes the date of the text.** -/
theorem dayOf_pubTimeOf (t : DateTime) : dayOf (pubTimeOf t) = t.date := by
  have space : ¬ InDate ' ' := by unfold InDate; decide
  have dot : ¬ InDate '.' := by unfold InDate; decide
  have undotted : replaceDots t.date = t.date := by
    rw [replaceDots, List.flatMap_congr (g := fun c => [c]), List.flatMap_singleton']
    intro c member
    exact if_neg ((inDate_date t c member).ne dot)
  have split : pubTimeOf t = t.date ++ ' ' :: replaceDots t.time := by
    rw [pubTimeOf, DateTime.text, replaceDots, List.flatMap_append, List.flatMap_cons]
    exact congrArg (· ++ _) undotted
  have inside : ∀ c ∈ t.date, decide (c ≠ ' ') = true :=
    fun c member => decide_eq_true ((inDate_date t c member).ne space)
  rw [dayOf, split, List.takeWhile_append_of_pos inside]
  simp

theorem length_zeroPad (width : ℕ) (digits : Str) :
    (zeroPad width digits).length = max width digits.length := by
  rw [zeroPad, List.length_append, List.length_replicate]
  omega

/-- A text that is long enough is not padded. -/
theorem zeroPad_eq_self {width : ℕ} {digits : Str} (long : width ≤ digits.length) :
    zeroPad width digits = digits := by
  rw [zeroPad, Nat.sub_eq_zero_of_le long]
  rfl

/-- The digits of a number below a power of ten. -/
theorem lt_length_toDigits_iff {n w : ℕ} (some_ : 0 < w) :
    w < (Nat.toDigits 10 n).length ↔ 10 ^ w ≤ n := by
  rw [← Nat.not_le, Nat.length_toDigits_le_iff (by decide) some_, Nat.not_lt]

/-- **The two keys of a day agree exactly when nothing is padded.** -/
theorem dayOf_pubTimeOf_iff (t : DateTime) :
    dayOf (pubTimeOf t) = docKeyOf t ↔ 1000 ≤ t.year ∧ 10 ≤ t.month ∧ 10 ≤ t.day := by
  have year := lt_length_toDigits_iff (n := t.year) (w := 3) (by decide)
  have month := lt_length_toDigits_iff (n := t.month) (w := 1) (by decide)
  have day := lt_length_toDigits_iff (n := t.day) (w := 1) (by decide)
  rw [dayOf_pubTimeOf, DateTime.date, docKeyOf, format04d, format02d, format02d]
  constructor
  · intro same
    have lengths := congrArg List.length same
    simp only [List.length_append, List.length_cons, length_zeroPad] at lengths
    omega
  · rintro ⟨long, two, two'⟩
    rw [zeroPad_eq_self, zeroPad_eq_self, zeroPad_eq_self] <;> omega

/-! ## A reading that is published and consumed -/

/-- The agent has found the document of the day, with the entry of the reading, and has marked the
entry. Nothing else has changed. -/
structure Marks (equipmentId docKey pubTime : Str) (old new : Database) : Prop where
  elsewhere : ∀ database collection, ¬ (database = str "facility" ∧ collection = equipmentId) →
    new database collection = old database collection
  here : ∃ before d d' after,
    findOne (old (str "facility") equipmentId) docKey = some d ∧ d.log.has pubTime = true ∧
      old (str "facility") equipmentId = before ++ d :: after ∧
      new (str "facility") equipmentId = before ++ d' :: after ∧ d'.id = d.id ∧ d'.day = d.day ∧
      ∀ k, d'.log.get? k = if k = pubTime then some .received else d.log.get? k

/-- The call of the agent marks the entry of a reading that has one. -/
theorem marks_upsert {db : Database} {equipmentId docKey pubTime : Str} {status : LogEntry}
    {d : Document} (sound : Sound (db (str "facility") equipmentId))
    (found : findOne (db (str "facility") equipmentId) docKey = some d)
    (known : d.log.has pubTime = true) :
    Marks equipmentId docKey pubTime db
      (db.upsert (str "facility") equipmentId ⟨docKey, pubTime, status⟩) := by
  refine ⟨fun database collection other => if_neg other, ?_⟩
  obtain ⟨before, after, split, -, behind⟩ :=
    documentUpsert_found ⟨docKey, pubTime, status⟩ sound found
  refine ⟨before, d, written ⟨docKey, pubTime, status⟩ d, after, found, known, split, ?_, rfl, rfl,
    fun k => ?_⟩
  · rw [Database.upsert, if_pos ⟨rfl, rfl⟩, behind]
  · simp only [written, Dict.get?_set, if_pos known]

/-- A packet that is published has been logged. -/
theorem servePacket_published {at_ : Surroundings} {facDaq : FacDaq} {db : Database} {p : Bytes}
    (published : (servePacket mongoUpsert at_ facDaq db p).1.published = true) :
    (servePacket mongoUpsert at_ facDaq db p).2.2 =
      db.upsert (str "facility") (readingOf p).equipmentId
        ⟨at_.now.docKey, at_.now.pubTime, .published⟩ := by
  unfold servePacket at published ⊢
  rw [convertHex2decimal_eq] at published ⊢
  by_cases decodes : Decodes p
  · rw [if_pos decodes]
    rfl
  · rw [if_neg decodes] at published
    cases published

/-- The message that a packet is published as. -/
def messageOf (at_ : Surroundings) (facDaq : FacDaq) (p : Bytes) : Option FacMsg :=
  at_.facilities.bind fun info =>
    (configFacMsg (readingOf p).equipmentId facDaq (readingOf p) at_.now info).2

/-- The description of a packet's sensor in Redis, as a key. -/
def sensorKey (at_ : Surroundings) (p : Bytes) : Option Key :=
  at_.facilities.bind fun info =>
    descriptionOf info (readingOf p).equipmentId (readingOf p).sensorCd

/-- What the agent takes for the day of a message. -/
def FacMsg.day (body : FacMsg) : Option Str := body.pubTime.map dayOf

/-- The message of a packet: a time unless the sensor is described as the time. -/
theorem messageOf_eq {at_ : Surroundings} {facDaq : FacDaq} (connection : DaqReached facDaq)
    {p : Bytes} {msg : FacMsg} (message : messageOf at_ facDaq p = some msg) :
    msg.equipmentId = (readingOf p).equipmentId ∧ Timed msg.values ∧
      msg.pubTime = if sensorKey at_ p = some pubTimeKey then none else some at_.now.pubTime := by
  obtain ⟨info, redis, made⟩ := Option.bind_eq_some_iff.mp message
  obtain ⟨equipment, timed, time⟩ :=
    (timed_configFacMsg (timed_of_reached connection) _ _ _ info).2 msg made
  refine ⟨equipment, timed, ?_⟩
  rw [FacMsg.pubTime, time, sensorKey, redis, Option.bind_some]
  by_cases number : descriptionOf info (readingOf p).equipmentId (readingOf p).sensorCd =
      some pubTimeKey
  · rw [if_pos number, if_pos number]
  · rw [if_neg number, if_neg number]

/-- The agent marks the entry that the server has just written, where their days agree. -/
theorem callback_marks (meTimestamp : ℕ) {body : FacMsg} (timed : Timed body.values) {pubTime : Str}
    (time : body.pubTime = some pubTime) {db : Database}
    (sound : Sound (db (str "facility") body.equipmentId)) :
    ∃ point db', callbackMqreceive meTimestamp body
        (db.upsert (str "facility") body.equipmentId ⟨dayOf pubTime, pubTime, .published⟩) =
          some (point, db') ∧
      Marks body.equipmentId (dayOf pubTime) pubTime
        (db.upsert (str "facility") body.equipmentId ⟨dayOf pubTime, pubTime, .published⟩) db' := by
  have stored : db.upsert (str "facility") body.equipmentId ⟨dayOf pubTime, pubTime, .published⟩
      (str "facility") body.equipmentId =
        documentUpsert ⟨dayOf pubTime, pubTime, .published⟩
          (db (str "facility") body.equipmentId) := if_pos ⟨rfl, rfl⟩
  obtain ⟨d, found, known⟩ :=
    findOne_documentUpsert ⟨dayOf pubTime, pubTime, .published⟩ sound
  have after : Sound (documentUpsert ⟨dayOf pubTime, pubTime, .published⟩
      (db (str "facility") body.equipmentId)) := by
    refine sound.writeUpsert (fun document here => ?_) fun _ => by simp [LogEntry.published]
    exact sound.unchecked document (findOne_mem here).1
  rw [← stored] at found after
  obtain ⟨fields, does⟩ := callbackMqreceive_eq meTimestamp timed
    (db.upsert (str "facility") body.equipmentId ⟨dayOf pubTime, pubTime, .published⟩)
  rw [time, Option.map_some, if_pos (by rw [found]; rfl)] at does
  exact ⟨_, _, does, marks_upsert after found known⟩

/-- **A reading is marked exactly when its date is not padded**, and its sensor is not described as
the time. -/
theorem reading_is_marked_iff (msTime meTimestamp : ℕ) (t : DateTime) {at_ : Surroundings}
    (clock : at_.now = nowAt msTime t) {facDaq : FacDaq} (connection : DaqReached facDaq)
    {db : Database} (reached : DatabaseReached db) {p : Bytes} {msg : FacMsg}
    (published : (servePacket mongoUpsert at_ facDaq db p).1.published = true)
    (message : messageOf at_ facDaq p = some msg) :
    (msg.day = some (docKeyOf t) ∧
      ∃ point db', callbackMqreceive meTimestamp msg (servePacket mongoUpsert at_ facDaq db p).2.2 =
          some (point, db') ∧
        Marks (readingOf p).equipmentId (docKeyOf t) (pubTimeOf t)
          (servePacket mongoUpsert at_ facDaq db p).2.2 db') ↔
      (1000 ≤ t.year ∧ 10 ≤ t.month ∧ 10 ≤ t.day) ∧ sensorKey at_ p ≠ some pubTimeKey := by
  obtain ⟨equipment, timed, time⟩ := messageOf_eq connection message
  rw [← dayOf_pubTimeOf_iff, servePacket_published published, FacMsg.day, clock, ← equipment]
  constructor
  · rintro ⟨day, -⟩
    rw [time] at day
    split at day
    · cases day
    · rename_i text
      rw [clock, Option.map_some, Option.some.injEq] at day
      exact ⟨day, text⟩
  · rintro ⟨same, text⟩
    rw [if_neg text, clock] at time
    have marks := callback_marks meTimestamp timed time (reached.sound _ _)
    rw [nowAt, same] at marks
    refine ⟨?_, marks⟩
    rw [time, Option.map_some]
    exact congrArg some same

/-- A packet that comes at the time given, to a server that knows TS0001. -/
def atTime (t : DateTime) : Surroundings := { redisWith facilityTs0001 true with now := nowAt 0 t }

/-- Before the first reading. -/
def emptyDatabase : Database := fun _ _ => []

theorem emptyDatabase_reached : DatabaseReached emptyDatabase :=
  fun _ _ => ⟨[], emptyLog, .nil, rfl⟩

/-- `2020-12-10 13:45:06.123456` -/
def inDecember : DateTime where
  year := 2020
  month := 12
  day := 10
  hour := 13
  minute := 45
  second := 6
  microsecond := 123456
  year_valid := by decide
  month_valid := by decide
  day_valid := by decide
  hour_valid := by decide
  minute_valid := by decide
  second_valid := by decide
  microsecond_valid := by decide

/-- A reading of the tenth of December is marked. -/
theorem reading_is_marked_iff_december : ∃ msg point db',
    messageOf (atTime inDecember) daqTs0001 packetTs0001 = some msg ∧
      callbackMqreceive 0 msg
        (servePacket mongoUpsert (atTime inDecember) daqTs0001 emptyDatabase packetTs0001).2.2 =
          some (point, db') ∧
      Marks (str "TS0001") (docKeyOf inDecember) (pubTimeOf inDecember)
        (servePacket mongoUpsert (atTime inDecember) daqTs0001 emptyDatabase packetTs0001).2.2 db' := by
  have loaded : getFacInf facilityTs0001 = some daqTs0001 := by decide +kernel
  have equipment : (readingOf packetTs0001).equipmentId = str "TS0001" := by decide +kernel
  have made : (messageOf (atTime inDecember) daqTs0001 packetTs0001).isSome = true := by
    decide +kernel
  obtain ⟨msg, message⟩ := Option.isSome_iff_exists.mp made
  obtain ⟨-, point, db', does, marks⟩ := (reading_is_marked_iff 0 0 inDecember rfl
    (.begins loaded) emptyDatabase_reached (by decide +kernel) message).mpr
      ⟨by decide, by decide +kernel⟩
  exact ⟨msg, point, db', message, does, equipment ▸ marks⟩

/-- `2021-01-05 09:08:07` -/
def inJanuary : DateTime where
  year := 2021
  month := 1
  day := 5
  hour := 9
  minute := 8
  second := 7
  microsecond := 0
  year_valid := by decide
  month_valid := by decide
  day_valid := by decide
  hour_valid := by decide
  minute_valid := by decide
  second_valid := by decide
  microsecond_valid := by decide

/-- **A reading is not marked.** The server writes the document of `2021-1-5`, and the agent looks
for `2021-01-05`. -/
theorem january_is_not_marked : ∃ msg, DaqReached daqTs0001 ∧
    (servePacket mongoUpsert (atTime inJanuary) daqTs0001 emptyDatabase packetTs0001).1.published =
      true ∧
    messageOf (atTime inJanuary) daqTs0001 packetTs0001 = some msg ∧
    msg.day ≠ some (docKeyOf inJanuary) ∧
    (callbackMqreceive 0 msg
      (servePacket mongoUpsert (atTime inJanuary) daqTs0001 emptyDatabase packetTs0001).2.2).any
        (fun done => (findOne (done.2 (str "facility") (str "TS0001")) (docKeyOf inJanuary)).any
          fun d => d.log.get? (pubTimeOf inJanuary) = some .published) = true := by
  have loaded : getFacInf facilityTs0001 = some daqTs0001 := by decide +kernel
  have all : (messageOf (atTime inJanuary) daqTs0001 packetTs0001).any (fun msg =>
      decide (msg.day ≠ some (docKeyOf inJanuary)) && (callbackMqreceive 0 msg
        (servePacket mongoUpsert (atTime inJanuary) daqTs0001 emptyDatabase packetTs0001).2.2).any
          fun done => (findOne (done.2 (str "facility") (str "TS0001")) (docKeyOf inJanuary)).any
            fun d => d.log.get? (pubTimeOf inJanuary) = some .published) = true := by
    decide +kernel
  obtain ⟨msg, message, checks⟩ := (Option.any_eq_true _ _).mp all
  rw [Bool.and_eq_true] at checks
  exact ⟨msg, .begins loaded, by decide +kernel, message, of_decide_eq_true checks.1, checks.2⟩

end WhaleShark.Server

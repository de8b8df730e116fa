import Mathlib.Algebra.Order.Field.Rat
import WhaleShark.Foundations.Runs
import WhaleShark.Server.Facilities

/-!
# The published snapshots

A connection keeps one table, which each reading with a known sensor code changes in the row of its
equipment. The row holds, for each description, the latest reading of the sensor that has it
(`Tracks`). So the message of a reading is a snapshot of its equipment
(`snapshots_are_latest`), where Redis holds the same facilities throughout, whose descriptions are
distinct in each equipment and are not the names of the two times.
-/

set_option autoImplicit false

namespace WhaleShark.Server

open Foundations

/-! ## A connection -/

/-- `manage_client`, packet by packet: the table and the database. An empty result ends it. -/
def connection {σ : Type} (documentUpsert : DocumentUpsert σ) :
    Machine (FacDaq × σ) (Surroundings × Bytes) Served where
  step s e :=
    if e.2 = [] then none
    else
      let (served, facDaq, db) := servePacket documentUpsert e.1 s.1 s.2 e.2
      some ((facDaq, db), served)

/-- What a step of it is. -/
theorem served_of_takes {σ : Type} {documentUpsert : DocumentUpsert σ}
    {τ : Transition (FacDaq × σ) (Surroundings × Bytes) Served}
    (takes : (connection documentUpsert).Takes τ) :
    τ.event.2 ≠ [] ∧
      (servePacket documentUpsert τ.event.1 τ.source.1 τ.source.2 τ.event.2).1 = τ.output ∧
      (servePacket documentUpsert τ.event.1 τ.source.1 τ.source.2 τ.event.2).2 = τ.target := by
  simp only [Machine.Takes, connection] at takes
  split at takes
  · cases takes
  · rename_i bytes
    simp only [Option.some.injEq, Prod.mk.injEq] at takes
    exact ⟨bytes, takes.2, takes.1⟩

/-- What it does in a run is what `manage_client` does with these packets. -/
theorem manageClient_of_run {σ : Type} {documentUpsert : DocumentUpsert σ} {s last : FacDaq × σ}
    {taken : List (Transition (FacDaq × σ) (Surroundings × Bytes) Served)}
    (run : (connection documentUpsert).Run s taken last) :
    manageClient documentUpsert s.1 s.2 (taken.map Transition.event) =
      taken.map Transition.output := by
  induction taken generalizing s with
  | nil => rfl
  | cons τ taken ih =>
      obtain ⟨rfl, takes, rest⟩ := run.uncons
      obtain ⟨bytes, served, target⟩ := served_of_takes takes
      calc manageClient documentUpsert τ.source.1 τ.source.2 (τ.event :: taken.map Transition.event)
          = (servePacket documentUpsert τ.event.1 τ.source.1 τ.source.2 τ.event.2).1 ::
              manageClient documentUpsert
                (servePacket documentUpsert τ.event.1 τ.source.1 τ.source.2 τ.event.2).2.1
                (servePacket documentUpsert τ.event.1 τ.source.1 τ.source.2 τ.event.2).2.2
                (taken.map Transition.event) := by rw [manageClient, if_neg bytes]
        _ = τ.output :: taken.map Transition.output := by rw [served, target, ih rest]

/-! ## What the table is to hold -/

/-- `'ms_time'`, as a key of a table. -/
def msTimeKey : Key := .string (str "ms_time")

/-- The sensors of an equipment. -/
def FacilitiesInfo.sensors (info : FacilitiesInfo) (equipmentId : Str) :
    Option (List (Str × Str)) :=
  info.equipments.lookup equipmentId

/-- The description of a sensor. -/
def FacilitiesInfo.describes (info : FacilitiesInfo) (equipmentId sensorCd : Str) : Option Str :=
  (info.sensors equipmentId).bind (·.lookup sensorCd)

/-- The descriptions of an equipment are distinct, and are not the names of the two times. -/
structure PlainDescriptions (info : FacilitiesInfo) : Prop where
  distinct : ∀ equipment ∈ info.equipments, (equipment.2.map Prod.snd).Nodup
  noTime : ∀ equipment ∈ info.equipments, ∀ sensor ∈ equipment.2,
    Key.string sensor.2 ≠ pubTimeKey ∧ Key.string sensor.2 ≠ msTimeKey

/-- The latest reading of a sensor. -/
def latestOf (readings : List Reading) (equipmentId sensorCd : Str) : Option Reading :=
  (readings.filter fun reading =>
    reading.equipmentId = equipmentId ∧ reading.sensorCd = sensorCd).getLast?

theorem latestOf_concat (readings : List Reading) (reading : Reading) (equipmentId sensorCd : Str) :
    latestOf (readings ++ [reading]) equipmentId sensorCd =
      if reading.equipmentId = equipmentId ∧ reading.sensorCd = sensorCd then some reading
      else latestOf readings equipmentId sensorCd := by
  unfold latestOf
  rw [List.filter_append]
  split
  · rename_i own
    simp [own]
  · rename_i other
    simp [other]

/-- The number that a value of the table is, if it is no time. -/
def DaqValue.toRat : DaqValue → Option ℚ
  | .quotient value decimalPoint => some (value / 10 ^ decimalPoint)
  | _ => none

/-- The last known value of a sensor. -/
def lastValue (readings : List Reading) (equipmentId sensorCd : Str) : ℚ :=
  match latestOf readings equipmentId sensorCd with
  | none => 0
  | some reading => reading.sensorValue / 10 ^ reading.decimalPoint

/-- The row of an equipment holds the last known value of each of its sensors. -/
def Shows (readings : List Reading) (equipmentId : Str) (sensors : List (Str × Str))
    (values : Dict Key DaqValue) : Prop :=
  ∀ sensor ∈ sensors, (values.get? (.string sensor.2)).bind DaqValue.toRat =
    some (lastValue readings equipmentId sensor.1)

/-- The table holds the last known value of each sensor. -/
def Tracks (info : FacilitiesInfo) (readings : List Reading) (facDaq : FacDaq) : Prop :=
  ∀ equipmentId sensors, info.sensors equipmentId = some sensors →
    ∃ values, facDaq.get? equipmentId = some values ∧ Shows readings equipmentId sensors values

/-- What `config_fac_msg` is to make of a reading: for a known sensor the message is a snapshot of
the equipment after the reading, with its times, and is what the table holds then; the other
equipments are left, and for an unknown sensor everything is. -/
structure Snapshot (info : FacilitiesInfo) (readings : List Reading) (before : FacDaq)
    (reading : Reading) (now : Now) (after : FacDaq) (message : Option FacMsg) : Prop where
  known : ∀ sensors, info.sensors reading.equipmentId = some sensors →
    (sensors.lookup reading.sensorCd).isSome → ∃ values,
      message = some ⟨reading.equipmentId, values⟩ ∧
      Shows (readings ++ [reading]) reading.equipmentId sensors values ∧
      values.get? pubTimeKey = some (.pubTime now.pubTime) ∧
      values.get? msTimeKey = some (.msTime now.msTime) ∧
      after.get? reading.equipmentId = some values
  others : ∀ equipmentId, equipmentId ≠ reading.equipmentId →
    after.get? equipmentId = before.get? equipmentId
  unknown : info.describes reading.equipmentId reading.sensorCd = none →
    message = none ∧ after = before

/-! ## One reading -/

theorem lookup_map_value {κ ν ν' : Type} [BEq κ] (entries : List (κ × ν)) (f : ν → ν') (k : κ) :
    (entries.map fun e => (e.1, f e.2)).lookup k = (entries.lookup k).map f := by
  induction entries with
  | nil => rfl
  | cons e entries ih =>
      rw [List.map_cons, List.lookup_cons, List.lookup_cons, ih]
      cases k == e.1 <;> rfl

/-- The description of a sensor in Redis is the one that the facilities have. -/
theorem index_json (info : FacilitiesInfo) (equipmentId sensorCd : Str) :
    (info.json.index equipmentId).bind (·.index sensorCd) =
      (info.describes equipmentId sensorCd).map Json.string := by
  have row : info.json.index equipmentId = (info.sensors equipmentId).map sensorsJson :=
    lookup_map_value info.equipments sensorsJson equipmentId
  rw [row, FacilitiesInfo.describes]
  cases info.sensors equipmentId with
  | none => rfl
  | some sensors => exact lookup_map_value sensors Json.string sensorCd

theorem configFacMsg_unknown {info : FacilitiesInfo} {equipmentId : Str} {reading : Reading}
    (unknown : info.describes equipmentId reading.sensorCd = none) (facDaq : FacDaq) (now : Now) :
    configFacMsg equipmentId facDaq reading now info.json = (facDaq, none) := by
  unfold configFacMsg
  rw [index_json, unknown]
  rfl

/-- The row of an equipment after a reading of the sensor with this description. -/
def rowAfter (values : Dict Key DaqValue) (reading : Reading) (now : Now) (description : Str) :
    Dict Key DaqValue :=
  ((values.set pubTimeKey (.pubTime now.pubTime)).set msTimeKey (.msTime now.msTime)).set
    (.string description) (.quotient reading.sensorValue reading.decimalPoint)

theorem configFacMsg_known {info : FacilitiesInfo} {equipmentId description : Str}
    {reading : Reading} (known : info.describes equipmentId reading.sensorCd = some description)
    {facDaq : FacDaq} {values : Dict Key DaqValue} (row : facDaq.get? equipmentId = some values)
    (now : Now) :
    configFacMsg equipmentId facDaq reading now info.json =
      (facDaq.set equipmentId (rowAfter values reading now description),
        some ⟨equipmentId, rowAfter values reading now description⟩) := by
  unfold configFacMsg
  rw [index_json, known, row]
  rfl

/-- The two times of a row after a reading. -/
theorem times_rowAfter {description : Str} (noTime : Key.string description ≠ pubTimeKey ∧
      Key.string description ≠ msTimeKey) (values : Dict Key DaqValue) (reading : Reading)
    (now : Now) :
    (rowAfter values reading now description).get? pubTimeKey = some (.pubTime now.pubTime) ∧
      (rowAfter values reading now description).get? msTimeKey = some (.msTime now.msTime) := by
  have apart : pubTimeKey ≠ msTimeKey := by decide +kernel
  unfold rowAfter
  simp only [Dict.get?_set, if_neg noTime.1.symm, if_neg noTime.2.symm, if_neg apart, if_true,
    and_self]

/-- The row holds the last known values after a reading, when it did before. -/
theorem shows_rowAfter {sensors : List (Str × Str)} {readings : List Reading} {reading : Reading}
    {values : Dict Key DaqValue} (codes : (sensors.map Prod.fst).Nodup)
    (descriptions : (sensors.map Prod.snd).Nodup)
    (noTime : ∀ sensor ∈ sensors, Key.string sensor.2 ≠ pubTimeKey ∧
      Key.string sensor.2 ≠ msTimeKey)
    {description : Str} (known : sensors.lookup reading.sensorCd = some description) (now : Now)
    (shows_ : Shows readings reading.equipmentId sensors values) :
    Shows (readings ++ [reading]) reading.equipmentId sensors
      (rowAfter values reading now description) := by
  intro sensor member
  obtain ⟨before, after, rfl, -⟩ := List.lookup_eq_some_iff.mp known
  rw [rowAfter, Dict.get?_set, lastValue, latestOf_concat]
  by_cases own : sensor = (reading.sensorCd, description)
  · subst own
    simp [DaqValue.toRat]
  · have sensorInside : (reading.sensorCd, description) ∈
        before ++ (reading.sensorCd, description) :: after := by simp
    have code : reading.sensorCd ≠ sensor.1 := fun same =>
      own (List.inj_on_of_nodup_map codes member sensorInside same.symm)
    have text : sensor.2 ≠ description := fun same =>
      own (List.inj_on_of_nodup_map descriptions member sensorInside same)
    have key : Key.string sensor.2 ≠ Key.string description := fun same =>
      text (Key.string.inj same)
    obtain ⟨noPub, noMs⟩ := noTime sensor member
    rw [if_neg key, Dict.get?_set, if_neg noMs, Dict.get?_set, if_neg noPub,
      if_neg fun both => code both.2]
    exact shows_ sensor member

/-- **What a reading does to a table that holds the last known values**, and that it holds them
again then. -/
theorem snapshot_configFacMsg {info : FacilitiesInfo} (plain : PlainDescriptions info)
    {readings : List Reading} {facDaq : FacDaq} (tracks : Tracks info readings facDaq)
    (reading : Reading) (now : Now) :
    let made := configFacMsg reading.equipmentId facDaq reading now info.json
    Snapshot info readings facDaq reading now made.1 made.2 ∧
      Tracks info (readings ++ [reading]) made.1 := by
  dsimp only
  cases described : info.describes reading.equipmentId reading.sensorCd with
  | none =>
      rw [configFacMsg_unknown described]
      refine ⟨⟨fun sensors own known => ?_, fun _ _ => rfl, fun _ => ⟨rfl, rfl⟩⟩, ?_⟩
      · rw [FacilitiesInfo.describes, own, Option.bind_some] at described
        simp [described] at known
      · intro equipmentId sensors row
        obtain ⟨values, found, shows_⟩ := tracks equipmentId sensors row
        refine ⟨values, found, fun sensor member => ?_⟩
        have other : ¬ (reading.equipmentId = equipmentId ∧ reading.sensorCd = sensor.1) := by
          rintro ⟨rfl, code⟩
          rw [FacilitiesInfo.describes, row, Option.bind_some, List.lookup_eq_none_iff] at described
          simpa [code] using described sensor member
        rw [shows_ sensor member, lastValue, lastValue, latestOf_concat, if_neg other]
  | some description =>
      obtain ⟨sensors, own, known⟩ := Option.bind_eq_some_iff.mp described
      obtain ⟨values, found, shows_⟩ := tracks reading.equipmentId sensors own
      rw [configFacMsg_known described found]
      obtain ⟨_, _, here, -⟩ := List.lookup_eq_some_iff.mp own
      have equipment : (reading.equipmentId, sensors) ∈ info.equipments := by simp [here]
      obtain ⟨_, _, there, -⟩ := List.lookup_eq_some_iff.mp known
      have sensor : (reading.sensorCd, description) ∈ sensors := by simp [there]
      have after := shows_rowAfter (info.distinctCodes _ equipment) (plain.distinct _ equipment)
        (plain.noTime _ equipment) known now shows_
      obtain ⟨pubTime, msTime⟩ := times_rowAfter (plain.noTime _ equipment _ sensor) values reading
        now
      have set_ : ∀ k,
          (facDaq.set reading.equipmentId (rowAfter values reading now description)).get? k =
            if k = reading.equipmentId then some (rowAfter values reading now description)
            else facDaq.get? k := Dict.get?_set facDaq _ _
      refine ⟨⟨fun sensors' own' _ => ?_, fun equipmentId other => ?_, fun none_ => ?_⟩, ?_⟩
      · obtain rfl : sensors = sensors' := Option.some.inj (own.symm.trans own')
        exact ⟨_, rfl, after, pubTime, msTime, by rw [set_, if_pos rfl]⟩
      · rw [set_, if_neg other]
      · rw [described] at none_
        cases none_
      · intro equipmentId sensors' row
        by_cases same : equipmentId = reading.equipmentId
        · subst same
          obtain rfl : sensors = sensors' := Option.some.inj (own.symm.trans row)
          exact ⟨_, by rw [set_, if_pos rfl], after⟩
        · obtain ⟨values', found', shows'⟩ := tracks equipmentId sensors' row
          refine ⟨values', by rw [set_, if_neg same, found'], fun sensor member => ?_⟩
          rw [shows' sensor member, lastValue, lastValue, latestOf_concat,
            if_neg fun both => same both.1.symm]

/-! ## Every run -/

/-- When a connection begins, no reading has come. -/
theorem tracks_loaded {info : FacilitiesInfo} {facDaq : FacDaq}
    (loaded : (RedisCon.getFacInf ⟨some info.json⟩).2 = some facDaq) : Tracks info [] facDaq := by
  obtain ⟨facDaq', loaded', table⟩ := tableOf_loaded info
  obtain rfl : facDaq' = facDaq := Option.some.inj (loaded'.symm.trans loaded)
  intro equipmentId sensors row
  obtain ⟨_, _, here, -⟩ := List.lookup_eq_some_iff.mp row
  have equipment : (equipmentId, sensors) ∈ info.equipments := by simp [here]
  obtain ⟨values, found, zeros⟩ := table.descriptions _ equipment
  refine ⟨values, found, fun sensor member => ?_⟩
  rw [(zeros (.string sensor.2) (.quotient 0 0)).mpr ⟨rfl, sensor, member, rfl⟩]
  simp [DaqValue.toRat, lastValue, latestOf]

/-- The table after a reading is the one that `config_fac_msg` makes. -/
theorem serveReading_table {at_ : Surroundings} {redisFacInfo : Json}
    (facilities : at_.facilities = some redisFacInfo) (facDaq : FacDaq) (packet : Str)
    (reading : Reading) (now : Now) :
    (serveReading at_ facDaq packet reading now).1.reading = some reading ∧
      (serveReading at_ facDaq packet reading now).2 =
        (configFacMsg reading.equipmentId facDaq reading now redisFacInfo).1 := by
  have unindexed (none_ : redisFacInfo.index reading.equipmentId = none) :
      (configFacMsg reading.equipmentId facDaq reading now redisFacInfo).1 = facDaq := by
    simp [configFacMsg, none_]
  unfold serveReading
  rw [facilities]
  cases members : redisFacInfo.members with
  | none =>
      simp only [members]
      exact ⟨trivial, (unindexed (by simp [Json.index, members])).symm⟩
  | some list =>
      simp only [members]
      split
      · split
        · rename_i made
          rw [made]
          exact ⟨rfl, rfl⟩
        · rename_i made
          rw [made]
          unfold publishFacilityMsg
          split
          · exact ⟨rfl, rfl⟩
          · rename_i pair
            split <;> exact ⟨rfl, rfl⟩
      · rename_i missing
        have none_ : list.lookup reading.equipmentId = none :=
          Option.not_isSome_iff_eq_none.mp missing
        exact ⟨rfl, (unindexed (by simp [Json.index, members, none_])).symm⟩

/-- The table after a packet. -/
theorem servePacket_table {σ : Type} (documentUpsert : DocumentUpsert σ) {at_ : Surroundings}
    {redisFacInfo : Json} (facilities : at_.facilities = some redisFacInfo) (facDaq : FacDaq)
    (db : σ) (p : Bytes) :
    (servePacket documentUpsert at_ facDaq db p).2.1 =
      match (servePacket documentUpsert at_ facDaq db p).1.reading with
      | none => facDaq
      | some reading =>
          (configFacMsg reading.equipmentId facDaq reading at_.now redisFacInfo).1 := by
  unfold servePacket
  rw [convertHex2decimal_eq]
  by_cases decodes : Decodes p
  · rw [if_pos decodes]
    dsimp only
    by_cases logged : (documentUpsert (str "facility") (readingOf p).equipmentId at_.now.docKey
        at_.now.pubTime db).2 = true
    · obtain ⟨reading, table⟩ := serveReading_table facilities facDaq (reprBytes p) (readingOf p)
        at_.now
      rw [if_pos logged]
      simp only [reading, table]
    · rw [if_neg logged]
  · rw [if_neg decodes]

/-- The readings of the packets so far. -/
def readingsIn {σ : Type}
    (taken : List (Transition (FacDaq × σ) (Surroundings × Bytes) Served)) : List Reading :=
  taken.filterMap fun τ => τ.output.reading

/-- **The published snapshot is the last known value of each sensor.** -/
theorem snapshots_are_latest {σ : Type} (documentUpsert : DocumentUpsert σ) {info : FacilitiesInfo}
    (plain : PlainDescriptions info) {facDaq : FacDaq}
    (loaded : (RedisCon.getFacInf ⟨some info.json⟩).2 = some facDaq) {db : σ}
    {taken : List (Transition (FacDaq × σ) (Surroundings × Bytes) Served)} {last : FacDaq × σ}
    (run : (connection documentUpsert).Run (facDaq, db) taken last)
    (fixed : ∀ τ ∈ taken, τ.event.1.facilities = some info.json) :
    ∀ past τ rest, taken = past ++ τ :: rest →
      ∀ reading, τ.output.reading = some reading →
        Snapshot info (readingsIn past) τ.source.1 reading τ.event.1.now τ.target.1
          (configFacMsg reading.equipmentId τ.source.1 reading τ.event.1.now info.json).2 := by
  have extends_ (past : List (Transition (FacDaq × σ) (Surroundings × Bytes) Served))
      (τ : Transition (FacDaq × σ) (Surroundings × Bytes) Served)
      (takes : (connection documentUpsert).Takes τ)
      (facilities : τ.event.1.facilities = some info.json)
      (tracks : Tracks info (readingsIn past) τ.source.1) :
      Tracks info (readingsIn (past ++ [τ])) τ.target.1 := by
    obtain ⟨-, served, target⟩ := served_of_takes takes
    have table := servePacket_table documentUpsert facilities τ.source.1 τ.source.2 τ.event.2
    rw [served, target] at table
    rw [readingsIn, List.filterMap_append, ← readingsIn, table]
    cases came : τ.output.reading with
    | none => simpa [came] using tracks
    | some reading =>
        have both := snapshot_configFacMsg plain tracks reading τ.event.1.now
        simpa [came] using both.2
  obtain ⟨-, along⟩ := run.history (fun past s => Tracks info (readingsIn past) s.1)
    (tracks_loaded loaded) extends_ fixed
  intro past τ rest split reading came
  have member : τ ∈ taken := by simp [split]
  obtain ⟨-, served, target⟩ := served_of_takes (run.takes τ member)
  have table := servePacket_table documentUpsert (fixed τ member) τ.source.1 τ.source.2 τ.event.2
  rw [served, target, came] at table
  rw [table]
  exact (snapshot_configFacMsg plain (along past τ rest split) reading τ.event.1.now).1

/-- TS0001 with its first sensor. -/
def infoTs0001 : FacilitiesInfo where
  equipments := [(str "TS0001", [(str "0001", str "TS_VOLT1_(RS)")])]
  distinct := by decide +kernel
  distinctCodes := by decide +kernel

theorem snapshots_are_latest_ts0001 :
    ∃ taken last, (connection fun _ _ _ _ db => (db, true)).Run (daqTs0001, ()) taken last ∧
      readingsIn taken = [readingOf packetTs0001, readingOf packetTs0001] ∧
      ∀ past τ rest, taken = past ++ τ :: rest → ∀ reading, τ.output.reading = some reading →
        Snapshot infoTs0001 (readingsIn past) τ.source.1 reading τ.event.1.now τ.target.1
          (configFacMsg reading.equipmentId τ.source.1 reading τ.event.1.now infoTs0001.json).2 := by
  let events := [(redisWith infoTs0001.json true, packetTs0001),
    (redisWith infoTs0001.json false, packetTs0001)]
  obtain ⟨⟨taken, last⟩, executed⟩ : ∃ result,
      (connection fun _ _ _ _ db => (db, true)).exec (daqTs0001, ()) events = some result :=
    ⟨_, rfl⟩
  have readings : ((connection fun _ _ _ _ db => (db, true)).exec (daqTs0001, ()) events).map
      (fun result => readingsIn result.1) = some [readingOf packetTs0001, readingOf packetTs0001] :=
    by decide +kernel
  rw [executed] at readings
  refine ⟨taken, last, Machine.run_exec executed, Option.some.inj readings,
    snapshots_are_latest _ ⟨by decide +kernel, by decide +kernel⟩ (by decide +kernel)
      (Machine.run_exec executed) fun τ member => ?_⟩
  have event : τ.event ∈ events :=
    Machine.events_of_exec executed ▸ List.mem_map_of_mem member
  simp only [events, List.mem_cons, List.not_mem_nil, or_false] at event
  rcases event with here | here <;> rw [here] <;> rfl

end WhaleShark.Server

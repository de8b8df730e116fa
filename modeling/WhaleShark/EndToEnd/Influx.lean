import Mathlib.Data.List.Infix
import WhaleShark.EndToEnd.SensorValue
import WhaleShark.Gateway.PlcCycle
import WhaleShark.Gateway.PlcSensors
import WhaleShark.Server.Fanout
import WhaleShark.Server.Snapshots

/-!
# From the PLC to InfluxDB

The gateway of a TS packetises the fields of the frames, the server decodes a packet at a time and
publishes a snapshot of the equipment, and the agent writes a point for each message of its queues.
The gateway, the server and the agent take their steps in any order (`pipeline`). Between the
gateway and the server there is a wire that loses nothing; what `SendData` drops is not in this
model.

What is written from each queue is a beginning of what is to be written for the readings of the PLC:
for each reading whose sensor has a description one point, in order, and it has for each description
the latest reading of the sensor, as the number that the PLC wrote with its decimal point
(`readings_reach_influx`).
-/

set_option autoImplicit false

namespace WhaleShark.EndToEnd

open Foundations Plc Server

/-! ## The system -/

/-- The PLC thread of the gateway, the packets on their way to the server, the table of the
connection, the log, and the agent's queues. -/
structure Pipeline where
  plc : PlcThread
  wire : List Bytes
  facDaq : FacDaq
  db : Database
  mq : MqState

inductive PipelineEvent where
  /-- The PLC thread takes a turn, or its connection comes or goes. -/
  | plc (e : PlcEvent)
  /-- The server receives a packet, from this peer and at this time. -/
  | serve (host : Str) (port : ℕ) (now : Now)
  /-- The agent takes a message from a queue. -/
  | consume (queue meTimestamp : ℕ)

inductive PipelineOutput where
  | made (made : Option Packetised)
  | served (served : Served)
  /-- `none` when the callback raises. -/
  | wrote (queue : ℕ) (point : Option Point)

/-- Publishing puts the message into each queue. -/
def published (mq : MqState) (message : Option FacMsg) : MqState :=
  { mq with queues := mq.queues.map fun queue => (queue.1, queue.2 ++ message.toList) }

/-- The gateway, the server and the agent, for what Redis holds. Each packet comes to the server as
one piece. -/
def pipeline (info : FacilitiesInfo) : Machine Pipeline PipelineEvent PipelineOutput where
  step s
    | .plc e => (plcThread.step s.plc e).map fun (plc, made) =>
        ({ s with plc := plc, wire := s.wire ++ (made.bind (·.sent)).toList }, .made made)
    | .serve host port now =>
        match s.wire with
        | [] => none
        | p :: wire =>
            let at_ : Surroundings := ⟨host, port, now, some info.json, true⟩
            let (served, facDaq, db) := servePacket mongoUpsert at_ s.facDaq s.db p
            let message := if served.published then messageOf at_ s.facDaq p else none
            some (⟨s.plc, wire, facDaq, db, published s.mq message⟩, .served served)
    | .consume i meTimestamp =>
        match s.mq.queues[i]? with
        | some (name, body :: rest) =>
            match callbackMqreceive meTimestamp body s.db with
            | some (point, db) =>
                let mq := { s.mq with queues := s.mq.queues.set i (name, rest) }
                some ({ s with db := db, mq := mq }, .wrote i (some point))
            | none => some ({ s with mq := ⟨[], false⟩ }, .wrote i none)
        | _ => none

abbrev PipelineTransition := Transition Pipeline PipelineEvent PipelineOutput

/-- The steps. -/
inductive PipelineStep (info : FacilitiesInfo) (s : Pipeline) :
    PipelineEvent → PipelineOutput → Pipeline → Prop where
  | plc {e : PlcEvent} {plc : PlcThread} {made : Option Packetised} (turn : Turn s.plc e plc made) :
      PipelineStep info s (.plc e) (.made made)
        { s with plc := plc, wire := s.wire ++ (made.bind (·.sent)).toList }
  | serve {host : Str} {port : ℕ} {now : Now} {p : Bytes} {wire : List Bytes} {served : Served}
      {facDaq : FacDaq} {db : Database} (first : s.wire = p :: wire)
      (serves : servePacket mongoUpsert ⟨host, port, now, some info.json, true⟩ s.facDaq s.db p =
        (served, facDaq, db)) :
      PipelineStep info s (.serve host port now) (.served served)
        ⟨s.plc, wire, facDaq, db, published s.mq (if served.published then
          messageOf ⟨host, port, now, some info.json, true⟩ s.facDaq p else none)⟩
  | consume {i meTimestamp : ℕ} {name : Str} {body : FacMsg} {rest : List FacMsg} {point : Point}
      {db : Database} (first : s.mq.queues[i]? = some (name, body :: rest))
      (calls : callbackMqreceive meTimestamp body s.db = some (point, db)) :
      PipelineStep info s (.consume i meTimestamp) (.wrote i (some point)) { s with
        db := db
        mq := { s.mq with queues := s.mq.queues.set i (name, rest) } }
  | raises {i meTimestamp : ℕ} {name : Str} {body : FacMsg} {rest : List FacMsg}
      (first : s.mq.queues[i]? = some (name, body :: rest))
      (calls : callbackMqreceive meTimestamp body s.db = none) :
      PipelineStep info s (.consume i meTimestamp) (.wrote i none) { s with mq := ⟨[], false⟩ }

theorem pipeline_cases {info : FacilitiesInfo} {s s' : Pipeline} {e : PipelineEvent}
    {o : PipelineOutput} (step : (pipeline info).step s e = some (s', o)) :
    PipelineStep info s e o s' := by
  cases e with
  | plc e =>
      obtain ⟨⟨plc, made⟩, turn, same⟩ := Option.map_eq_some_iff.mp step
      obtain ⟨rfl, rfl⟩ := Prod.mk.inj same
      exact .plc (plcThread_cases turn)
  | serve host port now =>
      simp only [pipeline] at step
      split at step
      · cases step
      · rename_i p wire first
        obtain ⟨rfl, rfl⟩ := Prod.mk.inj (Option.some.inj step)
        exact .serve first rfl
  | consume i meTimestamp =>
      simp only [pipeline] at step
      split at step
      · rename_i name body rest first
        split at step
        · rename_i point db calls
          obtain ⟨rfl, rfl⟩ := Prod.mk.inj (Option.some.inj step)
          exact .consume first calls
        · rename_i calls
          obtain ⟨rfl, rfl⟩ := Prod.mk.inj (Option.some.inj step)
          exact .raises first calls
      · cases step

/-! ## What is to be written -/

/-- The reading that a packetising of a TS is of: the field of the sensor whose turn it is. -/
def readingOfMade (id : DeviceId) (made : Packetised) : Reading :=
  let field := made.pData.drop (layoutOffset .ts made.sensorCodeCount.toNat)
  expectedReading id made.sensorCodeCount
    (plcValue (byteAt field 0) (byteAt field 1) (byteAt field 2) (byteAt field 3))

/-- The reading that a step packetises. -/
def madeReading (id : DeviceId) (τ : PipelineTransition) : Option Reading :=
  match τ.output with
  | .made (some made) => some (readingOfMade id made)
  | _ => none

/-- The readings of a run. -/
def readings (id : DeviceId) (taken : List PipelineTransition) : List Reading :=
  taken.filterMap (madeReading id)

/-- The readings behind which there is a snapshot to be written: each time those so far, up to one
of a sensor with a description. -/
def snapshots (info : FacilitiesInfo) (readings : List Reading) : List (List Reading) :=
  readings.inits.filter fun past => past.getLast?.any fun reading =>
    (info.describes reading.equipmentId reading.sensorCd).isSome

/-- The point that a step writes from a queue. -/
def pointFrom (queue : ℕ) (τ : PipelineTransition) : Option Point :=
  match τ.output with
  | .wrote i (some point) => if i = queue then some point else none
  | _ => none

/-- The points of a run from a queue. -/
def pointsFrom (queue : ℕ) (taken : List PipelineTransition) : List Point :=
  taken.filterMap (pointFrom queue)

/-- The point is one of the device, and has the last known value of each sensor. -/
structure PointShows (id : DeviceId) (sensors : List (Str × Str)) (readings : List Reading)
    (point : Point) : Prop where
  measurement : point.measurement = id.text
  values : ∀ sensor ∈ sensors, (point.fields.get? sensor.2).bind DaqValue.toRat =
    some (lastValue readings id.text sensor.1)

theorem snapshots_concat (info : FacilitiesInfo) (readings : List Reading) (reading : Reading) :
    snapshots info (readings ++ [reading]) = snapshots info readings ++
      if (info.describes reading.equipmentId reading.sensorCd).isSome then [readings ++ [reading]]
      else [] := by
  rw [snapshots, List.inits_append, List.filter_append]
  congr 1
  have last : (readings ++ [reading]).getLast? = some reading := by simp
  simp only [List.inits, List.map_cons, List.map_nil, List.tail_cons, List.filter_cons,
    List.filter_nil, last, Option.any_some]

/-! ## The packets -/

/-- The gateway has the device in its packets. -/
structure Configured (id : DeviceId) (info : PlcCommInfo) : Prop where
  devType : info.devType = id.devType
  devInfo : info.devInfo.cells =
    (if id.isTk then tk else ts) ++ leBytes16 (htons (decimal id.digits.cells).toUInt16)

/-- The packet carries the reading. -/
structure Carries (p : Bytes) (r : Reading) : Prop where
  decodes : Decodes p
  reading : readingOf p = r

/-- **The packet of a field is decoded**, to the reading of that field. -/
theorem carries_sensorPacket {id : DeviceId} {info : PlcCommInfo} (configured : Configured id info)
    (sensorCode : UInt16) (high : sensorCode.toNat ≤ 19) (value : List UInt8) :
    Carries (sensorPacket info.devInfo info.devType sensorCode value) (expectedReading id sensorCode
      (plcValue (byteAt value 0) (byteAt value 1) (byteAt value 2) (byteAt value 3))) := by
  obtain ⟨devType, devInfo⟩ := configured
  rw [leBytes16_htons] at devInfo
  obtain ⟨first, second, letters⟩ :
      ∃ first second, (if id.isTk then tk else ts) = [first, second] := by
    split
    · exact ⟨_, _, rfl⟩
    · exact ⟨_, _, rfl⟩
  have equipmentId := equipmentId_eq id
  have number := bigEndian_halfWord (decimal id.digits.cells).toUInt16
  rw [letters] at devInfo equipmentId
  have code := bigEndian_halfWord sensorCode
  have point := bigEndian_decimalPoint id sensorCode
  rw [← devType] at point
  have packet : sensorPacket info.devInfo info.devType sensorCode value =
      packetBytes first second ((decimal id.digits.cells).toUInt16 >>> 8).toUInt8
        (decimal id.digits.cells).toUInt16.toUInt8 (sensorCode >>> 8).toUInt8 sensorCode.toUInt8
        (byteAt value 3) (byteAt value 2) (byteAt value 1) (byteAt value 0)
        (decimalPoint info.devType sensorCode) ++ [] := by
    rw [List.append_nil]
    simp only [sensorPacket, devInfo]
    rfl
  rw [packet]
  refine ⟨decodes_packetBytes .., ?_⟩
  rw [readingOf_packetBytes, number, equipmentId, code, format04d_digits (by omega), point]
  simp only [expectedReading, bigEndian_value]

/-- **What a TS sends is the packet of its reading.** -/
theorem sent_of_packetise {id : DeviceId} {t : PlcThread}
    (counts : Counts .ts t) (configured : Configured id t.info) :
    ∃ p, (packetise t).2.sent = some p ∧ Carries p (readingOfMade id (packetise t).2) := by
  have kind : t.info.devType = .ts := counts.sameType
  have low : 1 ≤ t.sensorCodeCount.toNat := UInt16.le_iff_toNat_le.mp counts.low
  have high : t.sensorCodeCount.toNat ≤ 11 := UInt16.le_iff_toNat_le.mp counts.high
  have code : UInt16.ofNat t.sensorCodeCount.toNat = t.sensorCodeCount := UInt16.ofNat_toNat
  have sent := sentAt_ts t.info.devInfo t.info.rxBuf.cells low high
  rw [code, sensorPacket_take _ _ _ _ (layoutOffset_lt .ts high)] at sent
  rw [packetise_output, kind]
  refine ⟨_, sent, ?_⟩
  have carries := carries_sensorPacket configured t.sensorCodeCount (by omega)
    (t.info.rxBuf.cells.drop (layoutOffset .ts t.sensorCodeCount.toNat))
  rw [kind] at carries
  exact carries

/-! ## The server -/

/-- The names of the entries are texts, and distinct. -/
structure PlainRow (values : Dict Key DaqValue) : Prop where
  names : ∀ e ∈ values.entries, ∃ name, e.1 = .string name
  distinct : (values.entries.map Prod.fst).Nodup

theorem PlainRow.set {values : Dict Key DaqValue} (plain : PlainRow values) (name : Str)
    (v : DaqValue) : PlainRow (values.set (.string name) v) where
  names e member := by
    rcases Dict.mem_set member with rfl | old
    · exact ⟨name, rfl⟩
    · exact plain.names e old
  distinct := by
    unfold Dict.set
    split
    · have same : (values.entries.map fun e =>
          if e.1 = .string name then (Key.string name, v) else e).map Prod.fst =
            values.entries.map Prod.fst := by
        rw [List.map_map]
        refine List.map_congr_left fun e _ => ?_
        by_cases here : e.1 = .string name <;> simp [here]
      rw [same]
      exact plain.distinct
    · rename_i absent
      rw [List.map_append, List.nodup_append]
      refine ⟨plain.distinct, List.pairwise_singleton _ _, ?_⟩
      intro k old k' new same
      obtain rfl : k' = .string name := by simpa using new
      have missing : values.entries.lookup (.string name) = none :=
        Option.not_isSome_iff_eq_none.mp absent
      exact lookup_eq_none_iff_keys.mp missing (same ▸ old)

/-- All rows of the table are. -/
def PlainTable (facDaq : FacDaq) : Prop :=
  ∀ equipmentId values, facDaq.get? equipmentId = some values → PlainRow values

theorem plainRow_rowAfter {values : Dict Key DaqValue} (plain : PlainRow values) (reading : Reading)
    (now : Now) (description : Str) : PlainRow (rowAfter values reading now description) :=
  ((plain.set _ _).set _ _).set _ _

/-- `config_fac_msg` keeps the table so, and the message is. -/
theorem plain_configFacMsg (info : FacilitiesInfo) {facDaq : FacDaq} (plain : PlainTable facDaq)
    (reading : Reading) (now : Now) :
    PlainTable (configFacMsg reading.equipmentId facDaq reading now info.json).1 ∧
      ∀ body, (configFacMsg reading.equipmentId facDaq reading now info.json).2 = some body →
        PlainRow body.values := by
  cases described : info.describes reading.equipmentId reading.sensorCd with
  | none =>
      rw [configFacMsg_unknown described]
      exact ⟨plain, by simp⟩
  | some description =>
      cases row : facDaq.get? reading.equipmentId with
      | none =>
          have raised : configFacMsg reading.equipmentId facDaq reading now info.json =
              (facDaq, none) := by
            unfold configFacMsg
            rw [index_json, described, row]
            rfl
          rw [raised]
          exact ⟨plain, by simp⟩
      | some values =>
          have after := plainRow_rowAfter (plain _ _ row) reading now description
          rw [configFacMsg_known described row]
          refine ⟨fun equipmentId values' found => ?_, fun body same => ?_⟩
          · rw [Dict.get?_set] at found
            split at found
            · exact Option.some.inj found ▸ after
            · exact plain equipmentId values' found
          · exact Option.some.inj same ▸ after

theorem plainRow_sensorTable (sensors : List (Str × Str)) : PlainRow (sensorTable sensors) := by
  suffices go : ∀ d : Dict Key DaqValue, PlainRow d →
      PlainRow (sensors.foldl (fun values sensor =>
        if values.has (.string sensor.2) then values
        else values.set (.string sensor.2) (.quotient 0 0)) d) by
    exact go ⟨[]⟩ ⟨by simp, .nil⟩
  induction sensors with
  | nil => exact fun d plain => plain
  | cons sensor sensors ih =>
      intro d plain
      rw [List.foldl_cons]
      split
      · exact ih d plain
      · exact ih _ (plain.set _ _)

/-- The table of a connection is so at the beginning. -/
theorem plainTable_loaded {info : FacilitiesInfo} {facDaq : FacDaq}
    (loaded : Server.getFacInf info.json = some facDaq) : PlainTable facDaq := by
  rw [getFacInf_json] at loaded
  intro equipmentId values found
  have names : (info.equipments.map fun equipment => (equipment.1, sensorTable equipment.2)).map
      Prod.fst = info.equipments.map Prod.fst := by
    rw [List.map_map]
    rfl
  rw [← Option.some.inj loaded, Dict.get?_foldl_set (names ▸ info.distinct)] at found
  have empty : (⟨[]⟩ : FacDaq).get? equipmentId = none := rfl
  rw [empty, Option.or_none] at found
  have member := Dict.mem_of_get? (d := ⟨_⟩) found
  obtain ⟨equipment, -, same⟩ := List.mem_map.mp member
  exact (Prod.mk.inj same).2 ▸ plainRow_sensorTable equipment.2

/-- A reading is published exactly if `config_fac_msg` makes a message of it. -/
theorem serveReading_published {at_ : Surroundings} {redisFacInfo : Json}
    (facilities : at_.facilities = some redisFacInfo) (publishes : at_.publishes = true)
    (facDaq : FacDaq) (packet : Str) (reading : Reading) (now : Now) :
    (serveReading at_ facDaq packet reading now).1.published =
      (configFacMsg reading.equipmentId facDaq reading now redisFacInfo).2.isSome := by
  have unindexed (none_ : redisFacInfo.index reading.equipmentId = none) :
      (configFacMsg reading.equipmentId facDaq reading now redisFacInfo).2 = none := by
    simp [configFacMsg, none_]
  unfold serveReading
  rw [facilities]
  cases members : redisFacInfo.members with
  | none => simp [members, unindexed (by simp [Json.index, members])]
  | some list =>
      simp only [members]
      split
      · split
        · rename_i made
          simp [made]
        · rename_i made
          simp [made, publishFacilityMsg, publishes]
      · rename_i missing
        have none_ : list.lookup reading.equipmentId = none :=
          Option.not_isSome_iff_eq_none.mp missing
        simp [unindexed (by simp [Json.index, members, none_])]

/-- **What serving a packet does**: the table becomes what `config_fac_msg` makes of it, and its
message is published, if there is one. -/
theorem serves_carried (info : FacilitiesInfo) (host : Str) (port : ℕ) (now : Now) (facDaq : FacDaq)
    (db : Database) {p : Bytes} {reading : Reading} (carries : Carries p reading) :
    let at_ : Surroundings := ⟨host, port, now, some info.json, true⟩
    let after := servePacket mongoUpsert at_ facDaq db p
    let made := configFacMsg reading.equipmentId facDaq reading now info.json
    after.1.reading = some reading ∧ after.2.1 = made.1 ∧
      (if after.1.published then messageOf at_ facDaq p else none) = made.2 := by
  intro at_ after made
  have served : after.1 = (serveReading at_ facDaq (reprBytes p) reading now).1 ∧
      after.2.1 = (serveReading at_ facDaq (reprBytes p) reading now).2 := by
    simp only [after, servePacket, convertHex2decimal_eq, if_pos carries.decodes, carries.reading,
      mongoUpsert, if_true]
    exact ⟨rfl, rfl⟩
  have facilities : at_.facilities = some info.json := rfl
  obtain ⟨reading_, table⟩ := serveReading_table facilities facDaq (reprBytes p) reading now
  have publishes := serveReading_published facilities rfl facDaq (reprBytes p) reading now
  refine ⟨served.1 ▸ reading_, served.2.trans table, ?_⟩
  rw [served.1, publishes, messageOf, facilities, Option.bind_some, carries.reading]
  change (if made.2.isSome = true then made.2 else none) = made.2
  cases made.2 <;> rfl

/-! ## The agent -/

/-- The entries of a message that become fields. -/
def fieldsOf (entries : List (Key × DaqValue)) : List (Str × DaqValue) :=
  (entries.filter fun e => e.1 ≠ pubTimeKey).map fun e => (e.1.text, e.2)

/-- The loop over the keys sets them in turn. -/
theorem readFieldsOf_eq {values : Dict Key DaqValue} (timed : Timed values) :
    readFieldsOf values.entries =
      some ((fieldsOf values.entries).foldl (fun fields e => fields.set e.1 e.2) ⟨[]⟩) := by
  have go : ∀ (entries : List (Key × DaqValue)) (fields : Dict Str DaqValue),
      (∀ k s, (k, DaqValue.pubTime s) ∈ entries → k = pubTimeKey) →
        entries.foldlM (fun fields e =>
          if e.1 = pubTimeKey then some fields
          else e.2.toFloat.map fun value => fields.set e.1.text value) fields =
        some ((fieldsOf entries).foldl (fun fields e => fields.set e.1 e.2) fields) := by
    intro entries
    induction entries with
    | nil => exact fun fields _ => rfl
    | cons e entries ih =>
        intro fields timed
        have later (fields : Dict Str DaqValue) :=
          ih fields fun k s member => timed k s (List.mem_cons_of_mem _ member)
        rw [List.foldlM_cons, Option.bind_eq_bind]
        by_cases time : e.1 = pubTimeKey
        · rw [if_pos time, Option.bind_some, later, fieldsOf, fieldsOf,
            List.filter_cons_of_neg (by simpa using time)]
        · have float : e.2.toFloat = some e.2 := by
            obtain ⟨k, v⟩ := e
            cases v with
            | pubTime s => exact absurd (timed k s List.mem_cons_self) time
            | quotient value decimalPoint => rfl
            | msTime t => rfl
          rw [if_neg time, float, Option.map_some, Option.bind_some, later, fieldsOf, fieldsOf,
            List.filter_cons_of_pos (by simpa using time), List.map_cons, List.foldl_cons]
  exact go values.entries ⟨[]⟩ timed

/-- Entries that are named otherwise. -/
theorem get?_map_key {κ κ' ν : Type} [DecidableEq κ] [DecidableEq κ'] (f : κ' → κ) (k : κ) (k' : κ')
    (entries : List (κ' × ν)) (own : ∀ e ∈ entries, f e.1 = k ↔ e.1 = k') :
    (⟨entries.map fun e => (f e.1, e.2)⟩ : Dict κ ν).get? k = (⟨entries⟩ : Dict κ' ν).get? k' := by
  induction entries with
  | nil => rfl
  | cons e entries ih =>
      have later := ih fun e member => own e (List.mem_cons_of_mem _ member)
      have here := own e List.mem_cons_self
      unfold Dict.get? at later ⊢
      rw [List.map_cons, List.lookup_cons, List.lookup_cons, later]
      by_cases same : e.1 = k'
      · have named := here.mpr same
        simp [same.symm, named.symm]
      · have other : f e.1 ≠ k := fun named => same (here.mp named)
        have apart : (k == f e.1) = false := by simpa using other.symm
        have apart' : (k' == e.1) = false := by simpa using Ne.symm same
        rw [apart, apart']

/-- Entries without those of another name. -/
theorem get?_filter_ne {κ ν : Type} [DecidableEq κ] {k other : κ} (apart : k ≠ other)
    (entries : List (κ × ν)) :
    (⟨entries.filter fun e => e.1 ≠ other⟩ : Dict κ ν).get? k =
      (⟨entries⟩ : Dict κ ν).get? k := by
  induction entries with
  | nil => rfl
  | cons e entries ih =>
      unfold Dict.get? at ih ⊢
      rw [List.lookup_cons]
      by_cases here : e.1 = other
      · have not_ : (k == e.1) = false := by simpa [here] using apart
        rw [List.filter_cons_of_neg (by simpa using here), ih, not_]
      · rw [List.filter_cons_of_pos (by simpa using here), List.lookup_cons, ih]

/-- The entry of a name is the field of that name. -/
theorem PlainRow.get?_fieldsOf {values : Dict Key DaqValue} (plain : PlainRow values) {name : Str}
    (noTime : Key.string name ≠ pubTimeKey) :
    (⟨fieldsOf values.entries⟩ : Dict Str DaqValue).get? name = values.get? (.string name) := by
  have named := get?_map_key Key.text name (.string name)
    (values.entries.filter fun e => e.1 ≠ pubTimeKey) fun e member => by
      obtain ⟨own, same⟩ := plain.names e (List.mem_filter.mp member).1
      rw [same, Key.text, Key.string.injEq]
  exact named.trans (get?_filter_ne noTime values.entries)

/-- The names of the fields are distinct. -/
theorem PlainRow.distinct_fieldsOf {values : Dict Key DaqValue} (plain : PlainRow values) :
    ((fieldsOf values.entries).map Prod.fst).Nodup := by
  have texts : (fieldsOf values.entries).map Prod.fst =
      ((values.entries.filter fun e => e.1 ≠ pubTimeKey).map Prod.fst).map Key.text := by
    rw [fieldsOf, List.map_map, List.map_map]
    rfl
  rw [texts]
  refine List.Nodup.map_on ?_ (plain.distinct.sublist (List.filter_sublist.map _))
  intro k first k' second same
  have named {k : Key}
      (member : k ∈ (values.entries.filter fun e => e.1 ≠ pubTimeKey).map Prod.fst) :
      ∃ name, k = .string name := by
    obtain ⟨e, inside, rfl⟩ := List.mem_map.mp member
    exact plain.names e (List.mem_filter.mp inside).1
  obtain ⟨name, rfl⟩ := named first
  obtain ⟨name', rfl⟩ := named second
  exact congrArg Key.string same

/-- A message with the last known values. -/
structure MessageShows (id : DeviceId) (sensors : List (Str × Str)) (readings : List Reading)
    (body : FacMsg) : Prop where
  equipmentId : body.equipmentId = id.text
  shows_ : Shows readings id.text sensors body.values
  plain : PlainRow body.values
  timed : Timed body.values
  pubTime : body.pubTime.isSome = true

/-- **The agent writes the message as it is.** -/
theorem callback_shows {id : DeviceId} {sensors : List (Str × Str)} {readings : List Reading}
    {body : FacMsg} (message : MessageShows id sensors readings body)
    (noTime : ∀ sensor ∈ sensors, Key.string sensor.2 ≠ pubTimeKey ∧ sensor.2 ≠ str "me_time")
    (meTimestamp : ℕ) (db : Database) :
    ∃ point db', callbackMqreceive meTimestamp body db = some (point, db') ∧
      PointShows id sensors readings point := by
  obtain ⟨pubTime, some_⟩ := Option.isSome_iff_exists.mp message.pubTime
  unfold callbackMqreceive
  rw [readFieldsOf_eq message.timed, some_]
  refine ⟨_, _, rfl, message.equipmentId, fun sensor member => ?_⟩
  obtain ⟨noPub, noMe⟩ := noTime sensor member
  have empty : (⟨[]⟩ : Dict Str DaqValue).get? sensor.2 = none := rfl
  rw [Dict.get?_set, if_neg noMe, Dict.get?_foldl_set message.plain.distinct_fieldsOf, empty,
    Option.or_none]
  have field := message.plain.get?_fieldsOf noPub
  exact (congrArg (·.bind DaqValue.toRat) field).trans (message.shows_ sensor member)

/-! ## Every run -/

/-- The reading of the packet that a step serves. -/
def servedReading (τ : PipelineTransition) : Option Reading :=
  match τ.output with
  | .served served => served.reading
  | _ => none

/-- The readings that have come to the server. -/
def servedReadings (taken : List PipelineTransition) : List Reading := taken.filterMap servedReading

/-- The points from a queue and the messages in it are those to be written for the readings that
have come to the server. -/
def Writes (info : FacilitiesInfo) (id : DeviceId) (sensors : List (Str × Str))
    (served : List Reading) (points : List Point) (messages : List FacMsg) : Prop :=
  ∃ shown waiting, snapshots info served = shown ++ waiting ∧
    List.Forall₂ (PointShows id sensors) shown points ∧
    List.Forall₂ (MessageShows id sensors) waiting messages

/-- What holds at every point of a run. -/
structure Flows (info : FacilitiesInfo) (id : DeviceId) (sensors : List (Str × Str))
    (past : List PipelineTransition) (s : Pipeline) : Prop where
  consuming : s.mq.consuming = true ∧ s.mq.queues.length = info.equipments.length
  counts : Counts .ts s.plc
  configured : Configured id s.plc.info
  wire : ∃ waiting, readings id past = servedReadings past ++ waiting ∧
    List.Forall₂ Carries s.wire waiting
  device : ∀ reading ∈ readings id past, reading.equipmentId = id.text
  reached : DaqReached s.facDaq
  plain : PlainTable s.facDaq
  tracks : Tracks info (servedReadings past) s.facDaq
  queues : ∀ i queue, s.mq.queues[i]? = some queue →
    Writes info id sensors (servedReadings past) (pointsFrom i past) queue.2

theorem devInfo_packetise (t : PlcThread) :
    (packetise t).1.info.devInfo = t.info.devInfo ∧ (packetise t).1.info.devType = t.info.devType :=
  ⟨(packetise_keeps t).1.2.1, (packetise_keeps t).1.1⟩

/-- A turn of the PLC thread keeps the device, and what is sent is the packet of a reading. -/
theorem turn_carries {id : DeviceId} {t t' : PlcThread} {e : PlcEvent} {made : Option Packetised}
    (counts : Counts .ts t) (configured : Configured id t.info) (turn : Turn t e t' made) :
    Configured id t'.info ∧
      List.Forall₂ Carries (made.bind (·.sent)).toList (made.map (readingOfMade id)).toList := by
  have afterReads {reads : List (List UInt8)} {t' : PlcThread}
      (read : readAll (makeRoom t) reads = some t') :
      Counts .ts t' ∧ Configured id t'.info := by
    have kept := reads_keep read
    refine ⟨⟨readAll_ready (makeRoom_ready counts.ready) read, kept.devType.trans counts.sameType,
      kept.sensorCodeCount ▸ counts.low, kept.sensorCodeCount ▸ counts.high⟩, ?_, ?_⟩
    · exact kept.devType.trans configured.devType
    · rw [kept.devInfo]
      exact configured.devInfo
  have packetised {t : PlcThread} (counts : Counts .ts t) (configured : Configured id t.info) :
      Configured id (packetise t).1.info ∧ List.Forall₂ Carries
        ((some (packetise t).2).bind (·.sent)).toList
        ((some (packetise t).2).map (readingOfMade id)).toList := by
    obtain ⟨devInfo, devType⟩ := devInfo_packetise t
    obtain ⟨p, sent, carries⟩ := sent_of_packetise counts configured
    refine ⟨⟨devType.trans configured.devType, by rw [devInfo]; exact configured.devInfo⟩, ?_⟩
    rw [Option.bind_some, sent]
    exact .cons carries .nil
  cases turn with
  | idle => exact ⟨configured, .nil⟩
  | searching _ _ read _ => exact ⟨(afterReads read).2, .nil⟩
  | @found _ _ after _ _ read _ =>
      obtain ⟨⟨ready, sameType, low, high⟩, kept⟩ := afterReads read
      exact packetised (t := { after with info := { after.info with valid := disable } })
        ⟨⟨ready.fits, ready.begun⟩, sameType, low, high⟩ ⟨kept.devType, kept.devInfo⟩
  | next => exact packetised counts configured
  | setTcpStatus => exact ⟨⟨configured.devType, configured.devInfo⟩, .nil⟩

section Step

variable {info : FacilitiesInfo} {id : DeviceId} {sensors : List (Str × Str)}
  {past : List PipelineTransition} {s : Pipeline}

/-- A turn of the gateway. -/
theorem Flows.plc (flows : Flows info id sensors past s) {e : PlcEvent} {plc : PlcThread}
    {made : Option Packetised} (turn : Turn s.plc e plc made) :
    let s' := { s with plc := plc, wire := s.wire ++ (made.bind (·.sent)).toList }
    Flows info id sensors (past ++ [⟨s, .plc e, .made made, s'⟩]) s' := by
  intro s'
  obtain ⟨configured, carries⟩ := turn_carries flows.counts flows.configured turn
  obtain ⟨waiting, all, wire⟩ := flows.wire
  have made_ : readings id (past ++ [⟨s, .plc e, .made made, s'⟩]) =
      readings id past ++ (made.map (readingOfMade id)).toList := by
    rw [readings, List.filterMap_append]
    cases made <;> rfl
  have served : servedReadings (past ++ [⟨s, .plc e, .made made, s'⟩]) = servedReadings past := by
    simp [servedReadings, servedReading]
  have points (i : ℕ) :
      pointsFrom i (past ++ [⟨s, .plc e, .made made, s'⟩]) = pointsFrom i past := by
    simp [pointsFrom, pointFrom]
  refine
    { consuming := flows.consuming
      counts := turn_counts (by decide) turn flows.counts
      configured := configured
      wire := ⟨waiting ++ (made.map (readingOfMade id)).toList, ?_, List.rel_append wire carries⟩
      device := ?_
      reached := flows.reached
      plain := flows.plain
      tracks := served ▸ flows.tracks
      queues := fun i queue here => ?_ }
  · rw [made_, served, all, List.append_assoc]
  · intro reading member
    rw [made_] at member
    rcases List.mem_append.mp member with old | new
    · exact flows.device reading old
    · obtain ⟨m, -, rfl⟩ := Option.map_eq_some_iff.mp (Option.mem_toList.mp new)
      rfl
  · rw [served, points]
    exact flows.queues i queue here

/-- A packet is served. -/
theorem Flows.serve (plainInfo : PlainDescriptions info)
    (known : info.sensors id.text = some sensors) (flows : Flows info id sensors past s)
    {host : Str} {port : ℕ} {now : Now} {p : Bytes} {wire : List Bytes} {served : Served}
    {facDaq : FacDaq} {db : Database} (first : s.wire = p :: wire)
    (serves : servePacket mongoUpsert ⟨host, port, now, some info.json, true⟩ s.facDaq s.db p =
      (served, facDaq, db)) :
    let s' : Pipeline := ⟨s.plc, wire, facDaq, db, published s.mq (if served.published then
      messageOf ⟨host, port, now, some info.json, true⟩ s.facDaq p else none)⟩
    Flows info id sensors (past ++ [⟨s, .serve host port now, .served served, s'⟩]) s' := by
  intro s'
  obtain ⟨waiting, all, carried⟩ := flows.wire
  rw [first] at carried
  obtain ⟨reading, behind, carries, carried', rfl⟩ :=
    List.forall₂_cons_left_iff.mp carried
  have device : reading.equipmentId = id.text :=
    flows.device reading (by rw [all]; simp)
  obtain ⟨came, table, message⟩ := serves_carried info host port now s.facDaq s.db carries
  rw [serves] at came table message
  dsimp only at came table message
  have made_ : readings id (past ++ [⟨s, .serve host port now, .served served, s'⟩]) =
      readings id past := by
    simp [readings, madeReading]
  have served_ : servedReadings (past ++ [⟨s, .serve host port now, .served served, s'⟩]) =
      servedReadings past ++ [reading] := by
    simp [servedReadings, servedReading, came]
  have points (i : ℕ) : pointsFrom i (past ++ [⟨s, .serve host port now, .served served, s'⟩]) =
      pointsFrom i past := by
    simp [pointsFrom, pointFrom]
  obtain ⟨snapshot, tracks⟩ := snapshot_configFacMsg plainInfo flows.tracks reading now
  obtain ⟨plain, plainBody⟩ := plain_configFacMsg info flows.plain reading now
  have table' : s'.facDaq = (configFacMsg reading.equipmentId s.facDaq reading now info.json).1 :=
    table
  refine
    { consuming := ⟨flows.consuming.1, (List.length_map _).trans flows.consuming.2⟩
      counts := flows.counts
      configured := flows.configured
      wire := ⟨behind, by rw [made_, served_, all, List.append_assoc, List.singleton_append],
        carried'⟩
      device := made_.symm ▸ flows.device
      reached := table' ▸ flows.reached.serves reading.equipmentId reading now info.json
      plain := table' ▸ plain
      tracks := by
        rw [served_, table']
        exact tracks
      queues := fun i queue here => ?_ }
  rw [served_, points]
  obtain ⟨old, there, rfl⟩ := Option.map_eq_some_iff.mp
    ((List.getElem?_map (l := s.mq.queues)).symm.trans here)
  obtain ⟨shown, waiting, snaps, wrote, waits⟩ := flows.queues i old there
  rw [message]
  dsimp only
  cases described : info.describes reading.equipmentId reading.sensorCd with
  | none =>
      obtain ⟨none_, -⟩ := snapshot.unknown described
      refine ⟨shown, waiting, ?_, wrote, ?_⟩
      · rw [snapshots_concat, described, snaps]
        simp
      · rw [none_, Option.toList_none, List.append_nil]
        exact waits
  | some description =>
      have own : info.sensors reading.equipmentId = some sensors := device ▸ known
      have code : (sensors.lookup reading.sensorCd).isSome := by
        rw [FacilitiesInfo.describes, own, Option.bind_some] at described
        rw [described]
        rfl
      obtain ⟨values, body, shows_, pubTime, -, -⟩ := snapshot.known sensors own code
      have table := timed_of_reached flows.reached
      have timed := ((timed_configFacMsg table reading.equipmentId reading now info.json).2 _ body).2.1
      have shows' : MessageShows id sensors (servedReadings past ++ [reading])
          ⟨reading.equipmentId, values⟩ := by
        refine ⟨device, device ▸ shows_, plainBody _ body, timed, ?_⟩
        rw [FacMsg.pubTime, pubTime]
        rfl
      refine ⟨shown, waiting ++ [servedReadings past ++ [reading]], ?_, wrote, ?_⟩
      · rw [snapshots_concat, described, snaps, ← List.append_assoc]
        simp
      · rw [body, Option.toList_some]
        exact List.rel_append waits (.cons shows' .nil)

/-- A message is consumed. -/
theorem Flows.consume (noTime : ∀ sensor ∈ sensors,
      Key.string sensor.2 ≠ pubTimeKey ∧ sensor.2 ≠ str "me_time")
    (flows : Flows info id sensors past s) {i meTimestamp : ℕ} {name : Str} {body : FacMsg}
    {rest : List FacMsg} {point : Point} {db : Database}
    (first : s.mq.queues[i]? = some (name, body :: rest))
    (calls : callbackMqreceive meTimestamp body s.db = some (point, db)) :
    let s' := { s with
      db := db
      mq := { s.mq with queues := s.mq.queues.set i (name, rest) } }
    Flows info id sensors (past ++ [⟨s, .consume i meTimestamp, .wrote i (some point), s'⟩])
      s' := by
  intro s'
  have made_ : readings id (past ++ [⟨s, .consume i meTimestamp, .wrote i (some point), s'⟩]) =
      readings id past := by
    simp [readings, madeReading]
  have served : servedReadings (past ++
      [⟨s, .consume i meTimestamp, .wrote i (some point), s'⟩]) = servedReadings past := by
    simp [servedReadings, servedReading]
  refine
    { consuming := ⟨flows.consuming.1, List.length_set.trans flows.consuming.2⟩
      counts := flows.counts
      configured := flows.configured
      wire := by
        rw [made_, served]
        exact flows.wire
      device := made_.symm ▸ flows.device
      reached := flows.reached
      plain := flows.plain
      tracks := served.symm ▸ flows.tracks
      queues := fun j queue here => ?_ }
  rw [served]
  by_cases own : j = i
  · subst own
    obtain ⟨shown, waiting, snaps, wrote, waits⟩ := flows.queues j _ first
    obtain ⟨old, behind, message, waits', rfl⟩ := List.forall₂_cons_right_iff.mp waits
    obtain ⟨point', db', calls', shows_⟩ := callback_shows message noTime meTimestamp s.db
    obtain ⟨rfl, rfl⟩ := Prod.mk.inj (Option.some.inj (calls'.symm.trans calls))
    have bound : j < s.mq.queues.length := (List.getElem?_eq_some_iff.mp first).1
    obtain rfl : (name, rest) = queue := by simpa [s', bound] using here
    have points : pointsFrom j (past ++
        [⟨s, .consume j meTimestamp, .wrote j (some point'), s'⟩]) =
          pointsFrom j past ++ [point'] := by
      simp [pointsFrom, pointFrom]
    refine ⟨shown ++ [old], behind, by simpa using snaps, ?_, waits'⟩
    rw [points]
    exact List.rel_append wrote (.cons shows_ .nil)
  · have points : pointsFrom j (past ++
        [⟨s, .consume i meTimestamp, .wrote i (some point), s'⟩]) = pointsFrom j past := by
      simp [pointsFrom, pointFrom, Ne.symm own]
    rw [points]
    refine flows.queues j queue ?_
    simpa [s', Ne.symm own] using here

/-- **One step.** -/
theorem Flows.step (plainInfo : PlainDescriptions info)
    (known : info.sensors id.text = some sensors)
    (noMeTime : ∀ sensor ∈ sensors, sensor.2 ≠ str "me_time") {e : PipelineEvent}
    {o : PipelineOutput} {s' : Pipeline} (step : PipelineStep info s e o s')
    (flows : Flows info id sensors past s) :
    Flows info id sensors (past ++ [⟨s, e, o, s'⟩]) s' := by
  obtain ⟨_, _, here, -⟩ := List.lookup_eq_some_iff.mp known
  have equipment : (id.text, sensors) ∈ info.equipments := by simp [here]
  have noTime : ∀ sensor ∈ sensors,
      Key.string sensor.2 ≠ pubTimeKey ∧ sensor.2 ≠ str "me_time" := fun sensor member =>
    ⟨(plainInfo.noTime _ equipment sensor member).1, noMeTime sensor member⟩
  cases step with
  | plc turn => exact flows.plc turn
  | serve first serves => exact flows.serve plainInfo known first serves
  | consume first calls => exact flows.consume noTime first calls
  | raises first calls =>
      obtain ⟨shown, waiting, -, -, waits⟩ := flows.queues _ _ first
      obtain ⟨old, behind, message, -, rfl⟩ := List.forall₂_cons_right_iff.mp waits
      obtain ⟨point, db, calls', -⟩ := callback_shows message noTime _ s.db
      cases calls.symm.trans calls'

end Step

/-- More readings have at most so many snapshots more. -/
theorem snapshots_append (info : FacilitiesInfo) (readings more : List Reading) :
    ∃ later, snapshots info (readings ++ more) = snapshots info readings ++ later ∧
      later.length ≤ more.length := by
  induction more using List.reverseRecOn with
  | nil => exact ⟨[], by simp, Nat.le_refl _⟩
  | append_singleton more reading ih =>
      obtain ⟨later, same, short⟩ := ih
      rw [← List.append_assoc, snapshots_concat, same, List.length_append]
      split
      · exact ⟨later ++ [readings ++ more ++ [reading]], List.append_assoc .., by simpa using short⟩
      · exact ⟨later, List.append_nil _, Nat.le_add_right_of_le short⟩

/-- The gateway has started with its device in the configuration, the server has loaded the table of
the connection, and the agent has a queue for each equipment. -/
def Pipeline.begins (info : FacilitiesInfo) (plcInfo : PlcCommInfo) (facDaq : FacDaq)
    (db : Database) : Pipeline where
  plc := plcBegins plcInfo
  wire := []
  facDaq := facDaq
  db := db
  mq := syncmessage (info.equipments.map fun equipment => (equipment.1, sensorsJson equipment.2))

/-- **The readings of the PLC reach InfluxDB**, each once for each queue, in order, with the latest
values. What is not written yet is in the queue or on the way to the server, and the agent never
raises. -/
theorem readings_reach_influx {info : FacilitiesInfo} (plainInfo : PlainDescriptions info)
    {id : DeviceId} (isTs : id.isTk = false) {sensors : List (Str × Str)}
    (known : info.sensors id.text = some sensors)
    (noMeTime : ∀ sensor ∈ sensors, sensor.2 ≠ str "me_time") (plcInfo : PlcCommInfo)
    {after : List UInt8} (ends : isDigit (byteAt after 0) = false) {facDaq : FacDaq}
    (loaded : Server.getFacInf info.json = some facDaq) (db : Database)
    {taken : List PipelineTransition} {last : Pipeline}
    (run : (pipeline info).Run
      (.begins info (initPlcCommInfo plcInfo (id.bytes ++ after)) facDaq db) taken last) :
    Machine.Throughout (fun past s =>
      s.mq.consuming = true ∧ s.mq.queues.length = info.equipments.length ∧
      ∀ i queue, s.mq.queues[i]? = some queue → ∃ shown waiting,
        snapshots info (readings id past) = shown ++ waiting ∧
        List.Forall₂ (PointShows id sensors) shown (pointsFrom i past) ∧
        waiting.length ≤ queue.2.length + s.wire.length) taken last := by
  obtain ⟨devType, devInfo⟩ := initPlcCommInfo_device plcInfo id ends
  have kind : id.devType = .ts := by rw [DeviceId.devType, isTs]; rfl
  have initial : Flows info id sensors []
      (.begins info (initPlcCommInfo plcInfo (id.bytes ++ after)) facDaq db) :=
    { consuming := ⟨rfl, by simp [Pipeline.begins, syncmessage]⟩
      counts := ⟨⟨Nat.zero_le _, fun _ => Nat.zero_le _⟩, devType.trans kind,
        (by decide : (1 : UInt16) ≤ 1), (by decide : (1 : UInt16) ≤ lastSensorCode .ts)⟩
      configured := ⟨devType, devInfo⟩
      wire := ⟨[], rfl, .nil⟩
      device := by simp [readings]
      reached := .begins loaded
      plain := plainTable_loaded loaded
      tracks := tracks_loaded loaded
      queues := fun i queue here => by
        have empty : queue.2 = [] := by
          have member := List.mem_of_getElem? here
          simp only [Pipeline.begins, syncmessage, List.mem_map] at member
          obtain ⟨facility, -, rfl⟩ := member
          rfl
        rw [empty]
        exact ⟨[], [], rfl, .nil, .nil⟩ }
  obtain ⟨reached, along⟩ := run.invariant (Flows info id sensors) initial
    fun past τ takes flows => flows.step plainInfo known noMeTime (pipeline_cases takes)
  have tells {past : List PipelineTransition} {s : Pipeline}
      (flows : Flows info id sensors past s) :
      s.mq.consuming = true ∧ s.mq.queues.length = info.equipments.length ∧
      ∀ i queue, s.mq.queues[i]? = some queue → ∃ shown waiting,
        snapshots info (readings id past) = shown ++ waiting ∧
        List.Forall₂ (PointShows id sensors) shown (pointsFrom i past) ∧
        waiting.length ≤ queue.2.length + s.wire.length := by
    refine ⟨flows.consuming.1, flows.consuming.2, fun i queue here => ?_⟩
    obtain ⟨shown, waiting, snaps, wrote, waits⟩ := flows.queues i queue here
    obtain ⟨coming, all, wire⟩ := flows.wire
    obtain ⟨later, more, short⟩ := snapshots_append info (servedReadings past) coming
    refine ⟨shown, waiting ++ later, ?_, wrote, ?_⟩
    · rw [all, more, snaps, List.append_assoc]
    · rw [List.length_append, waits.length_eq, wire.length_eq]
      exact Nat.add_le_add_left short _
  exact ⟨tells reached, fun past τ rest split => tells (along past τ rest split)⟩

/-- TS0001 with two sensors, and another equipment. -/
def twoEquipments : FacilitiesInfo where
  equipments := [(str "TS0001", defaultSensors.take 2), (str "TS0002", [])]
  distinct := by decide +kernel
  distinctCodes := by decide +kernel

/-- A frame with a voltage of 33.0. -/
def frameOf330 : List UInt8 := stx :: 0x4A :: 0x01 :: List.replicate 75 0 ++ [0x4D]

/-- Of the two packets of a frame the first has come to InfluxDB from the first queue, and the
second one is on its way. -/
theorem readings_reach_influx_two : ∃ taken last,
    (pipeline twoEquipments).Run (.begins twoEquipments
      (initPlcCommInfo blankInfo (ts0001.bytes ++ [0]))
      ((Server.getFacInf twoEquipments.json).getD ⟨[]⟩) emptyDatabase) taken last ∧
    (pointsFrom 0 taken).map (fun point => point.fields.get? (str "TS_VOLT1_(RS)")) =
      [some (.quotient 330 1)] ∧ pointsFrom 1 taken = [] ∧ last.wire.length = 1 ∧
    ∀ i queue, last.mq.queues[i]? = some queue → ∃ shown waiting,
      snapshots twoEquipments (readings ts0001 taken) = shown ++ waiting ∧
      List.Forall₂ (PointShows ts0001 (defaultSensors.take 2)) shown (pointsFrom i taken) ∧
      waiting.length ≤ queue.2.length + last.wire.length := by
  obtain ⟨taken, last, run, passed⟩ := Machine.exists_run_of_passes (pipeline twoEquipments)
    (.begins twoEquipments (initPlcCommInfo blankInfo (ts0001.bytes ++ [0]))
      ((Server.getFacInf twoEquipments.json).getD ⟨[]⟩) emptyDatabase)
    [.plc (.setTcpStatus enable), .plc (.received true false [frameOf330 ++ [0]]),
      .serve (str "10.0.0.2") 1024 (atTime inDecember).now, .plc (.received false true []),
      .consume 0 7]
    (fun taken last => decide ((pointsFrom 0 taken).map
        (fun point => point.fields.get? (str "TS_VOLT1_(RS)")) = [some (.quotient 330 1)] ∧
      pointsFrom 1 taken = [] ∧ last.wire.length = 1)) (by decide +kernel)
  obtain ⟨wrote, none_, wire⟩ := of_decide_eq_true passed
  have plainInfo : PlainDescriptions twoEquipments := ⟨by decide +kernel, by decide +kernel⟩
  have known : twoEquipments.sensors ts0001.text = some (defaultSensors.take 2) := by decide +kernel
  have isTs : ts0001.isTk = false := rfl
  have ends : isDigit (byteAt [0] 0) = false := by decide
  have loaded : Server.getFacInf twoEquipments.json =
      some ((Server.getFacInf twoEquipments.json).getD ⟨[]⟩) := by decide +kernel
  have all := readings_reach_influx plainInfo isTs known (by decide +kernel) blankInfo ends loaded
    emptyDatabase run
  exact ⟨taken, last, run, wrote, none_, wire, all.1.2.2⟩

end WhaleShark.EndToEnd

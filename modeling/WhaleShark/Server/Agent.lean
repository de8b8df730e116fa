import WhaleShark.Server.Interleavings
import WhaleShark.Server.ManageClient

/-!
# The agent

The agent consumes what the server has published, notes in the log of the day that the reading was
received, and writes a point to InfluxDB. It raises for a message whose `pub_time` is a number
(`callbackMqreceive_eq`), which comes of a sensor with that description: the server's tables hold
a time in no other place (`timed_of_reached`).
-/

set_option autoImplicit false

namespace WhaleShark.Server

/-! ## The server's table -/

/-- `'pub_time'`, as a key of a table. -/
def pubTimeKey : Key := .string (str "pub_time")

/-- `get_fac_inf`, on what `json.loads` returns. -/
def getFacInf (facilitiesInfo : Json) : Option FacDaq := do
  let equipments ← facilitiesInfo.members
  equipments.foldlM (fun facDaq equipment => do
    let sensors ← equipment.2.members
    let values ← sensors.foldlM (fun values sensor => do
      let sensorDesc ← sensor.2.asKey
      return if values.has sensorDesc then values else values.set sensorDesc (.quotient 0 0))
      (⟨[]⟩ : Dict Key DaqValue)
    return facDaq.set equipment.1 values) ⟨[]⟩

/-- The tables of a connection: what `get_fac_inf` loads, and what `config_fac_msg` makes of it. -/
inductive DaqReached : FacDaq → Prop where
  | begins {facilitiesInfo : Json} {facDaq : FacDaq}
      (loaded : getFacInf facilitiesInfo = some facDaq) : DaqReached facDaq
  | serves {facDaq : FacDaq} (before : DaqReached facDaq) (equipmentId : Str) (reading : Reading)
      (now : Now) (redisFacInfo : Json) :
      DaqReached (configFacMsg equipmentId facDaq reading now redisFacInfo).1

/-- A time stands as a text under `pub_time` only. -/
def Timed (values : Dict Key DaqValue) : Prop :=
  ∀ k s, (k, DaqValue.pubTime s) ∈ values.entries → k = pubTimeKey

def TimedTable (facDaq : FacDaq) : Prop := ∀ e ∈ facDaq.entries, Timed e.2

theorem Timed.set {values : Dict Key DaqValue} (timed : Timed values) {k : Key} {v : DaqValue}
    (own : ∀ s, v = .pubTime s → k = pubTimeKey) : Timed (values.set k v) := by
  intro k' s member
  rcases Dict.mem_set member with here | earlier
  · obtain ⟨rfl, value⟩ := Prod.mk.injEq .. ▸ here
    exact own s value.symm
  · exact timed k' s earlier

theorem TimedTable.set {facDaq : FacDaq} (timed : TimedTable facDaq) (equipmentId : Str)
    {values : Dict Key DaqValue} (own : Timed values) :
    TimedTable (facDaq.set equipmentId values) := by
  intro e member
  rcases Dict.mem_set member with rfl | earlier
  · exact own
  · exact timed e earlier

theorem timed_nil : Timed ⟨[]⟩ := by
  intro k s member
  cases member

/-- A fold that may fail keeps what each of its steps keeps. -/
theorem foldlM_keeps {α β : Type} {f : β → α → Option β} {P : β → Prop}
    (step : ∀ b a b', f b a = some b' → P b → P b') {items : List α} :
    ∀ {b b' : β}, items.foldlM f b = some b' → P b → P b' := by
  induction items with
  | nil =>
      intro b b' folded holds
      cases folded
      exact holds
  | cons a items ih =>
      intro b b' folded holds
      rw [List.foldlM_cons, Option.bind_eq_bind, Option.bind_eq_some_iff] at folded
      obtain ⟨middle, first, rest⟩ := folded
      exact ih rest (step b a middle first holds)

theorem timed_getFacInf {facilitiesInfo : Json} {facDaq : FacDaq}
    (loaded : getFacInf facilitiesInfo = some facDaq) : TimedTable facDaq := by
  unfold getFacInf at loaded
  obtain ⟨equipments, -, loaded⟩ := Option.bind_eq_some_iff.mp loaded
  refine foldlM_keeps (P := TimedTable) ?_ loaded (fun e member => nomatch member)
  intro table equipment table' next timed
  obtain ⟨sensors, -, next⟩ := Option.bind_eq_some_iff.mp next
  obtain ⟨values, filled, next⟩ := Option.bind_eq_some_iff.mp next
  cases next
  refine timed.set equipment.1 (foldlM_keeps (P := Timed) ?_ filled timed_nil)
  intro values sensor values' next timed
  obtain ⟨sensorDesc, -, next⟩ := Option.bind_eq_some_iff.mp next
  cases next
  split
  · exact timed
  · exact timed.set fun s number => nomatch number

/-- The description of a sensor in Redis, as a key. -/
def descriptionOf (redisFacInfo : Json) (equipmentId sensorCd : Str) : Option Key :=
  ((redisFacInfo.index equipmentId).bind (·.index sensorCd)).bind (·.asKey)

/-- The message of a reading has a time under `pub_time` only, and there unless the sensor has that
description. -/
theorem timed_configFacMsg {facDaq : FacDaq} (timed : TimedTable facDaq) (equipmentId : Str)
    (reading : Reading) (now : Now) (redisFacInfo : Json) :
    TimedTable (configFacMsg equipmentId facDaq reading now redisFacInfo).1 ∧
      ∀ msg, (configFacMsg equipmentId facDaq reading now redisFacInfo).2 = some msg →
        msg.equipmentId = equipmentId ∧ Timed msg.values ∧
          msg.values.get? pubTimeKey =
            if descriptionOf redisFacInfo equipmentId reading.sensorCd = some pubTimeKey then
              some (.quotient reading.sensorValue reading.decimalPoint)
            else some (.pubTime now.pubTime) := by
  unfold configFacMsg descriptionOf
  cases (redisFacInfo.index equipmentId).bind (·.index reading.sensorCd) with
  | none => exact ⟨timed, fun msg none_ => nomatch none_⟩
  | some sensorDesc =>
      cases row : facDaq.get? equipmentId with
      | none => exact ⟨timed, fun msg none_ => nomatch none_⟩
      | some values =>
          have noted : Timed ((values.set (.string (str "pub_time")) (.pubTime now.pubTime)).set
              (.string (str "ms_time")) (.msTime now.msTime)) :=
            ((timed _ (Dict.mem_of_get? row)).set fun _ _ => rfl).set fun s number => nomatch number
          cases asKey : sensorDesc.asKey with
          | none =>
              simp only [Option.bind_some, asKey]
              exact ⟨timed.set equipmentId noted, fun msg none_ => nomatch none_⟩
          | some key =>
              have filled := noted.set (k := key)
                (v := .quotient reading.sensorValue reading.decimalPoint)
                fun s number => nomatch number
              simp only [Option.bind_some, asKey]
              refine ⟨timed.set equipmentId filled, fun msg made => ?_⟩
              cases made
              have other : Key.string (str "pub_time") ≠ Key.string (str "ms_time") := by
                decide +kernel
              refine ⟨rfl, filled, ?_⟩
              simp only [Dict.get?_set, pubTimeKey, Option.some.injEq, if_neg other, if_true,
                eq_comm (a := key)]

/-- **A time stands as a text under `pub_time` only, in the tables of every connection.** -/
theorem timed_of_reached {facDaq : FacDaq} (reached : DaqReached facDaq) : TimedTable facDaq := by
  induction reached with
  | begins loaded => exact timed_getFacInf loaded
  | serves _ equipmentId reading now redisFacInfo ih =>
      exact (timed_configFacMsg ih equipmentId reading now redisFacInfo).1

/-! ## The database -/

/-- The collections, by the names of their database and their own. -/
abbrev Database := Str → Str → Collection

/-- `document_upsert`, on the collection that is named. -/
def Database.upsert (db : Database) (database collection : Str) (call : Upsert) : Database :=
  fun database' collection' =>
    if database' = database ∧ collection' = collection then
      documentUpsert call (db database' collection')
    else db database' collection'

/-- `document_upsert` as the server calls it. -/
def mongoUpsert : DocumentUpsert Database := fun database collection docKey pubTime db =>
  (db.upsert database collection ⟨docKey, pubTime, .published⟩, true)

/-- Each collection is what calls of the two programs have made of it, in any order of their
operations. -/
def DatabaseReached (db : Database) : Prop :=
  ∀ database collection, ∃ taken last, mongoLog.Run emptyLog taken last ∧
    last.documents = db database collection

theorem DatabaseReached.sound {db : Database} (reached : DatabaseReached db)
    (database collection : Str) : Sound (db database collection) := by
  obtain ⟨taken, last, run, same⟩ := reached database collection
  exact same ▸ sound_of_run run

/-! ## The callback -/

/-- The name that a key has in a JSON object. -/
def Key.text : Key → Str
  | .null => str "null"
  | .bool true => str "true"
  | .bool false => str "false"
  | .number text => text
  | .string s => s

/-- `float(value)`. The text of a time raises. -/
def DaqValue.toFloat : DaqValue → Option DaqValue
  | .pubTime _ => none
  | value => some value

/-- The loop over the keys of a message. -/
def readFieldsOf (entries : List (Key × DaqValue)) : Option (Dict Str DaqValue) :=
  entries.foldlM (fun fields e =>
    if e.1 = pubTimeKey then some fields
    else e.2.toFloat.map fun value => fields.set e.1.text value) ⟨[]⟩

/-- `pub_time`, as a text. A number has no `split`. -/
def FacMsg.pubTime (body : FacMsg) : Option Str :=
  match body.values.get? pubTimeKey with
  | some (.pubTime s) => some s
  | _ => none

/-- `pub_time.split(' ')[0]` -/
def dayOf (pubTime : Str) : Str := pubTime.takeWhile (· ≠ ' ')

/-- An entry of `influx_json`. -/
structure Point where
  measurement : Str
  fields : Dict Str DaqValue
  deriving DecidableEq

/-- `callback_mqreceive`: what is written to InfluxDB, and what becomes of the database. `none` says
that it raises, which it does before it writes anything. -/
def callbackMqreceive (meTimestamp : ℕ) (body : FacMsg) (db : Database) :
    Option (Point × Database) := do
  let tableName := body.equipmentId
  let fields ← readFieldsOf body.values.entries
  let pubTime ← body.pubTime
  let day := dayOf pubTime
  let pubDoc := findOne (db (str "facility") tableName) day
  let db := if pubDoc.isSome then db.upsert (str "facility") tableName ⟨day, pubTime, .check⟩ else db
  return (⟨tableName, fields.set (str "me_time") (.msTime meTimestamp)⟩, db)

/-- The loop ends for a message with a time under `pub_time` only. -/
theorem readFieldsOf_isSome {values : Dict Key DaqValue} (timed : Timed values) :
    (readFieldsOf values.entries).isSome := by
  have go : ∀ (entries : List (Key × DaqValue)) (fields : Dict Str DaqValue),
      (∀ k s, (k, DaqValue.pubTime s) ∈ entries → k = pubTimeKey) →
        (entries.foldlM (fun fields e =>
          if e.1 = pubTimeKey then some fields
          else e.2.toFloat.map fun value => fields.set e.1.text value) fields).isSome := by
    intro entries
    induction entries with
    | nil => simp
    | cons e entries ih =>
        obtain ⟨k, v⟩ := e
        intro fields timed
        have later := fun fields =>
          ih fields fun k s member => timed k s (List.mem_cons_of_mem _ member)
        rw [List.foldlM_cons, Option.bind_eq_bind]
        by_cases time : k = pubTimeKey
        · simpa [time] using later fields
        · cases v with
          | pubTime s => exact absurd (timed k s List.mem_cons_self) time
          | quotient value decimalPoint => simpa [time, DaqValue.toFloat] using later _
          | msTime t => simpa [time, DaqValue.toFloat] using later _
  exact go values.entries ⟨[]⟩ timed

/-- **What the callback does.** It raises when `pub_time` is no text; otherwise it writes a point to
the measurement of the equipment, and calls `document_upsert` when there is a document. -/
theorem callbackMqreceive_eq (meTimestamp : ℕ) {body : FacMsg} (timed : Timed body.values)
    (db : Database) :
    ∃ fields, callbackMqreceive meTimestamp body db = body.pubTime.map fun pubTime =>
      (⟨body.equipmentId, fields⟩,
        if (findOne (db (str "facility") body.equipmentId) (dayOf pubTime)).isSome then
          db.upsert (str "facility") body.equipmentId ⟨dayOf pubTime, pubTime, .check⟩
        else db) := by
  obtain ⟨fields, read⟩ := Option.isSome_iff_exists.mp (readFieldsOf_isSome timed)
  refine ⟨fields.set (str "me_time") (.msTime meTimestamp), ?_⟩
  unfold callbackMqreceive
  rw [read]
  cases body.pubTime <;> rfl

end WhaleShark.Server

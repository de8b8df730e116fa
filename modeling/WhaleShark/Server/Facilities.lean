import WhaleShark.Server.Agent

/-!
# The table of a connection

`get_fac_inf` makes the table that a connection begins with: for each equipment in Redis a zero for
each description of its sensors. Where Redis holds facilities, that is the table (`tableOf_loaded`).
Where it holds none, the default ones are stored, but what is decoded then is the `None` that was
got before, so that it raises. So it does what it is for exactly when Redis holds facilities
(`loads_table_iff`).
-/

set_option autoImplicit false

namespace WhaleShark.Server

/-! ## What Redis holds -/

/-- `facilities_info`: sensor codes and descriptions for each equipment. The names in an object are
distinct. -/
structure FacilitiesInfo where
  equipments : List (Str × List (Str × Str))
  distinct : (equipments.map Prod.fst).Nodup
  distinctCodes : ∀ equipment ∈ equipments, (equipment.2.map Prod.fst).Nodup

/-- The sensors of an equipment, as an object. -/
def sensorsJson (sensors : List (Str × Str)) : Json :=
  .object (sensors.map fun sensor => (sensor.1, .string sensor.2))

/-- What `json.loads` makes of it. -/
def FacilitiesInfo.json (info : FacilitiesInfo) : Json :=
  .object (info.equipments.map fun equipment => (equipment.1, sensorsJson equipment.2))

/-- The sensors that `init_facilities_info` gives each equipment. -/
def defaultSensors : List (Str × Str) :=
  [(str "0001", str "TS_VOLT1_(RS)"), (str "0002", str "TS_VOLT1_(ST)"),
    (str "0003", str "TS_VOLT1_(RT)"), (str "0004", str "TS_AMP1_(R)"),
    (str "0005", str "TS_AMP1_(S)"), (str "0006", str "TS_AMP1_(T)"),
    (str "0007", str "INNER_PRESS"), (str "0008", str "PUMP_PRESS"),
    (str "0009", str "TEMPERATURE1(PV)"), (str "0010", str "TEMPERATURE1(SV)"),
    (str "0011", str "OVER_TEMP")]

/-- `facilities_dict` -/
def facilitiesDict : FacilitiesInfo where
  equipments :=
    [(str "TS0001", defaultSensors), (str "TS0002", defaultSensors), (str "TS0003", defaultSensors),
      (str "TS0008", defaultSensors)]
  distinct := by decide +kernel
  distinctCodes := by decide +kernel

/-- The connection to Redis: what `json.loads` makes of the entry `facilities_info`, if there is
one. -/
structure RedisCon where
  facilitiesInfo : Option Json

/-- `init_facilities_info` -/
def RedisCon.initFacilitiesInfo (redisCon : RedisCon) : RedisCon :=
  { redisCon with facilitiesInfo := some facilitiesDict.json }

/-- `get_fac_inf`, and what Redis holds then. `none` says that it raises. -/
def RedisCon.getFacInf (redisCon : RedisCon) : RedisCon × Option FacDaq :=
  let facilitiesBinary := redisCon.facilitiesInfo
  let redisCon := if facilitiesBinary.isNone then redisCon.initFacilitiesInfo else redisCon
  -- `None` has no `decode`
  (redisCon, facilitiesBinary.bind Server.getFacInf)

/-! ## What the table is for -/

/-- The table has an entry for each equipment and no other, and in it a zero for each description
and no other. -/
structure TableOf (info : FacilitiesInfo) (facDaq : FacDaq) : Prop where
  equipments : ∀ equipmentId, facDaq.has equipmentId = true ↔
    equipmentId ∈ info.equipments.map Prod.fst
  descriptions : ∀ equipment ∈ info.equipments, ∃ values, facDaq.get? equipment.1 = some values ∧
    ∀ key value, values.get? key = some value ↔
      value = .quotient 0 0 ∧ ∃ sensor ∈ equipment.2, key = .string sensor.2

/-- A table is returned, it is the one of what Redis holds then, and where Redis held nothing, that
is the default. -/
def LoadsTable (redisCon : RedisCon) : Prop :=
  ∃ facDaq info, redisCon.getFacInf.2 = some facDaq ∧
    redisCon.getFacInf.1.facilitiesInfo = some info.json ∧ TableOf info facDaq ∧
    (redisCon.facilitiesInfo = none → info = facilitiesDict)

/-! ## Dictionaries that are filled in turn -/

theorem lookup_of_mem {κ ν : Type} [DecidableEq κ] {entries : List (κ × ν)}
    (distinct : (entries.map Prod.fst).Nodup) {e : κ × ν} (member : e ∈ entries) :
    entries.lookup e.1 = some e.2 := by
  obtain ⟨before, after, rfl⟩ := List.append_of_mem member
  rw [List.lookup_eq_some_iff]
  refine ⟨before, after, rfl, fun p inside => ?_⟩
  rw [List.map_append, List.map_cons, List.nodup_append] at distinct
  have other := distinct.2.2 p.1 (List.mem_map_of_mem inside) e.1 List.mem_cons_self
  simpa using other.symm

theorem lookup_eq_none_iff_keys {κ ν : Type} [DecidableEq κ] {entries : List (κ × ν)} {k : κ} :
    entries.lookup k = none ↔ k ∉ entries.map Prod.fst := by
  rw [List.lookup_eq_none_iff, List.mem_map]
  constructor
  · rintro other ⟨p, inside, same⟩
    exact bne_iff_ne.mp (other p inside) same.symm
  · intro absent p inside
    exact bne_iff_ne.mpr fun same => absent ⟨p, inside, same.symm⟩

/-- Entries with distinct keys that are set in turn are all there, over what was there before. -/
theorem Dict.get?_foldl_set {κ ν : Type} [DecidableEq κ] {entries : List (κ × ν)}
    (distinct : (entries.map Prod.fst).Nodup) (d : Dict κ ν) (k : κ) :
    (entries.foldl (fun d e => d.set e.1 e.2) d).get? k = (entries.lookup k).or (d.get? k) := by
  induction entries generalizing d with
  | nil => rfl
  | cons e entries ih =>
      obtain ⟨absent, rest⟩ := List.nodup_cons.mp distinct
      rw [List.foldl_cons, ih rest, Dict.get?_set, List.lookup_cons]
      by_cases here : k = e.1
      · have missing : entries.lookup k = none := lookup_eq_none_iff_keys.mpr (here ▸ absent)
        rw [if_pos here, missing, here]
        simp
      · have other : (k == e.1) = false := by simpa using here
        rw [if_neg here, other]

/-- The table of an equipment. -/
def sensorTable (sensors : List (Str × Str)) : Dict Key DaqValue :=
  sensors.foldl (fun values sensor =>
    if values.has (.string sensor.2) then values
    else values.set (.string sensor.2) (.quotient 0 0)) ⟨[]⟩

/-- It has a zero for each description and no other. -/
theorem get?_sensorTable (sensors : List (Str × Str)) (key : Key) (value : DaqValue) :
    (sensorTable sensors).get? key = some value ↔
      value = .quotient 0 0 ∧ ∃ sensor ∈ sensors, key = .string sensor.2 := by
  suffices go : ∀ d : Dict Key DaqValue, (∀ k v, d.get? k = some v → v = .quotient 0 0) →
      ((sensors.foldl (fun values sensor =>
          if values.has (.string sensor.2) then values
          else values.set (.string sensor.2) (.quotient 0 0)) d).get? key = some value ↔
        value = .quotient 0 0 ∧ (d.has key = true ∨ ∃ sensor ∈ sensors, key = .string sensor.2)) by
    have empty (k : Key) : (⟨[]⟩ : Dict Key DaqValue).get? k = none := rfl
    have begun := go ⟨[]⟩ (fun k v found => by cases found)
    simpa [sensorTable, Dict.has, empty] using begun
  induction sensors with
  | nil =>
      intro d zeros
      cases found : d.get? key with
      | none => simp [Dict.has, found]
      | some v =>
          obtain rfl := zeros key v found
          simpa [Dict.has, found] using eq_comm
  | cons sensor sensors ih =>
      intro d zeros
      rw [List.foldl_cons, List.exists_mem_cons_iff]
      by_cases known : d.has (.string sensor.2) = true
      · rw [if_pos known, ih d zeros]
        refine and_congr_right fun _ => ⟨?_, ?_⟩
        · rintro (there | later)
          · exact .inl there
          · exact .inr (.inr later)
        · rintro (there | rfl | later)
          · exact .inl there
          · exact .inl known
          · exact .inr later
      · rw [if_neg known, ih]
        · refine and_congr_right fun _ => ?_
          rw [← or_assoc]
          refine or_congr_left ?_
          rw [Dict.has, Dict.get?_set, Dict.has]
          by_cases here : key = .string sensor.2
          · simp [here]
          · simp [here]
        · intro k v found
          rw [Dict.get?_set] at found
          split at found
          · exact (Option.some.inj found).symm
          · exact zeros k v found

/-! ## Loading -/

/-- A fold none of whose steps fails. -/
theorem foldlM_map_eq_some {α α' β : Type} {f : β → α' → Option β} {h : α → α'} {g : β → α → β}
    (step : ∀ b a, f b (h a) = some (g b a)) (items : List α) (b : β) :
    (items.map h).foldlM f b = some (items.foldl g b) := by
  induction items generalizing b with
  | nil => rfl
  | cons a items ih => rw [List.map_cons, List.foldlM_cons, step, List.foldl_cons, ← ih]; rfl

theorem getFacInf_json (info : FacilitiesInfo) :
    Server.getFacInf info.json =
      some ((info.equipments.map fun equipment => (equipment.1, sensorTable equipment.2)).foldl
        (fun d e => d.set e.1 e.2) ⟨[]⟩) := by
  unfold Server.getFacInf FacilitiesInfo.json
  rw [List.foldl_map]
  refine foldlM_map_eq_some (fun facDaq equipment => ?_) info.equipments (⟨[]⟩ : FacDaq)
  simp only [sensorsJson, Json.members, Option.bind_eq_bind, Option.bind_some]
  refine Option.bind_eq_some_iff.mpr ⟨sensorTable equipment.2, ?_, rfl⟩
  refine foldlM_map_eq_some (fun values sensor => ?_) equipment.2 (⟨[]⟩ : Dict Key DaqValue)
  rfl

/-- **Where Redis holds facilities, their table is loaded.** -/
theorem tableOf_loaded (info : FacilitiesInfo) :
    ∃ facDaq, Server.getFacInf info.json = some facDaq ∧ TableOf info facDaq := by
  have names : (info.equipments.map fun equipment => (equipment.1, sensorTable equipment.2)).map
      Prod.fst = info.equipments.map Prod.fst := by
    rw [List.map_map]
    rfl
  have all := Dict.get?_foldl_set (names ▸ info.distinct) (⟨[]⟩ : FacDaq)
  have empty (k : Str) : (⟨[]⟩ : FacDaq).get? k = none := rfl
  refine ⟨_, getFacInf_json info, fun equipmentId => ?_, fun equipment member => ?_⟩
  · rw [Dict.has, all, empty, Option.or_none, Option.isSome_iff_ne_none, ← names, ne_eq,
      lookup_eq_none_iff_keys, not_not]
  · refine ⟨sensorTable equipment.2, ?_, get?_sensorTable equipment.2⟩
    rw [all, empty, Option.or_none]
    exact lookup_of_mem (e := (equipment.1, sensorTable equipment.2)) (names ▸ info.distinct)
      (List.mem_map_of_mem member)

/-- **A table is loaded as it should be exactly when Redis holds facilities.** -/
theorem loads_table_iff (stored : Option FacilitiesInfo) :
    LoadsTable ⟨stored.map FacilitiesInfo.json⟩ ↔ stored ≠ none := by
  cases stored with
  | none =>
      refine iff_of_false ?_ (fun some_ => some_ rfl)
      rintro ⟨facDaq, info, loaded, -⟩
      cases loaded
  | some info =>
      obtain ⟨facDaq, loaded, table⟩ := tableOf_loaded info
      exact iff_of_true ⟨facDaq, info, loaded, rfl, table, fun none_ => nomatch none_⟩ (by simp)

/-- **Without facilities in Redis it raises**, when it has stored the default ones. -/
theorem first_connection_raises :
    (RedisCon.getFacInf ⟨none⟩).2 = none ∧
      (RedisCon.getFacInf ⟨none⟩).1.facilitiesInfo = some facilitiesDict.json ∧
      ¬ LoadsTable ⟨none⟩ := by
  refine ⟨rfl, rfl, ?_⟩
  rintro ⟨facDaq, info, loaded, -⟩
  cases loaded

end WhaleShark.Server

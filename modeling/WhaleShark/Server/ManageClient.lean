import WhaleShark.Server.Convert

/-!
# Serving a gateway

`manage_client` decodes what one call of `sock_recv` returned, publishes the reading, and answers
the gateway. Whatever raises on the way ends in the handler that answers with the text of the
packet alone. So there is one answer for each packet, but it is a line that begins with `OK` or
`ER`, and truly so, only when nothing of this kind happens and the equipment is known: an unknown
equipment is answered with `OK`, and an unknown sensor code or a failed publication with neither
(`answersTruly_iff`).

What Redis, the message broker, the clock and the database do for a packet is given with the
packet.
-/

set_option autoImplicit false

namespace WhaleShark.Server

/-! ## What Redis holds -/

/-- What `json.loads` returns. The members of an object have distinct names. -/
inductive Json where
  | null
  | bool (b : Bool)
  | number (text : Str)
  | string (s : Str)
  | array (items : List Json)
  | object (members : List (Str × Json))

/-- The values that can be the key of a `dict`. -/
inductive Key where
  | null
  | bool (b : Bool)
  | number (text : Str)
  | string (s : Str)
  deriving DecidableEq

/-- The members of an object. Anything else has no `keys`. -/
def Json.members : Json → Option (List (Str × Json))
  | .object members => some members
  | _ => none

/-- `x[name]` -/
def Json.index (x : Json) (name : Str) : Option Json := do
  let members ← x.members
  members.lookup name

/-- A value as the key of a `dict`. Lists and `dict`s raise. -/
def Json.asKey : Json → Option Key
  | .null => some .null
  | .bool b => some (.bool b)
  | .number text => some (.number text)
  | .string s => some (.string s)
  | .array _ => none
  | .object _ => none

/-! ## The facility message -/

/-- A value in `fac_daq`. -/
inductive DaqValue where
  /-- `float(value) / math.pow(10, float(decimalPoint))` -/
  | quotient (value decimalPoint : ℕ)
  | pubTime (s : Str)
  | msTime (t : ℕ)
  deriving DecidableEq

/-- `fac_daq`: for each equipment the last value of each sensor description. -/
abbrev FacDaq := Dict Str (Dict Key DaqValue)

/-- `{equipment_id: fac_daq[equipment_id]}` -/
structure FacMsg where
  equipmentId : Str
  values : Dict Key DaqValue
  deriving DecidableEq

/-- `config_fac_msg`. The entries it has set stay when it raises. -/
def configFacMsg (equipmentId : Str) (facDaq : FacDaq) (reading : Reading) (now : Now)
    (redisFacInfo : Json) : FacDaq × Option FacMsg :=
  match (redisFacInfo.index equipmentId).bind (·.index reading.sensorCd) with
  | none => (facDaq, none)
  | some sensorDesc =>
      match facDaq.get? equipmentId with
      | none => (facDaq, none)
      | some values =>
          let values := values.set (.string (str "pub_time")) (.pubTime now.pubTime)
          let values := values.set (.string (str "ms_time")) (.msTime now.msTime)
          match sensorDesc.asKey with
          | none => (facDaq.set equipmentId values, none)
          | some key =>
              let values := values.set key (.quotient reading.sensorValue reading.decimalPoint)
              (facDaq.set equipmentId values, some ⟨equipmentId, values⟩)

/-- What `publish_facility_msg` returns: the channel and the message, or a `dict` with one key. -/
inductive PublishResult where
  | pair (rtnJson : FacMsg)
  | status

/-- `publish_facility_msg`, given whether `basic_publish` is reached and returns. -/
def publishFacilityMsg (publishes : Bool) (jsonBody : FacMsg) : PublishResult :=
  if publishes then .pair jsonBody else .status

/-! ## One packet -/

/-- What a packet meets: the peer, the clock, what `json.loads` makes of `facilities_info` (`none`
when it raises, as it does on a missing entry), and whether publishing succeeds. -/
structure Surroundings where
  host : Str
  port : ℕ
  now : Now
  facilities : Option Json
  publishes : Bool

/-- What serving a packet has done: the arguments of `sendall`, whether the reading went to the
exchange, and the reading obtained with status `OK`. -/
structure Served where
  replies : List Bytes
  published : Bool
  reading : Option Reading
  deriving DecidableEq

/-- `CR LF` -/
def crLf : Str := [Char.ofNat 0x0D, Char.ofNat 0x0A]

/-- The branch of `manage_client` for the status `OK`. -/
def serveReading (at_ : Surroundings) (facDaq : FacDaq) (packet : Str) (reading : Reading)
    (now : Now) : Served × FacDaq :=
  let raised (published : Bool) : Served := ⟨[encode packet], published, some reading⟩
  match at_.facilities with
  | none => (raised false, facDaq)
  | some redisFacInfo =>
      match redisFacInfo.members with
      | none => (raised false, facDaq)
      | some members =>
          if (members.lookup reading.equipmentId).isSome then
            match configFacMsg reading.equipmentId facDaq reading now redisFacInfo with
            | (facDaq, none) => (raised false, facDaq)
            | (facDaq, some facMsg) =>
                match publishFacilityMsg at_.publishes facMsg with
                -- a `dict` with one key does not unpack into two names
                | .status => (raised false, facDaq)
                | .pair rtnJson =>
                    if rtnJson = facMsg then
                      (⟨[encode (Status.ok.text ++ packet ++ crLf)], true, some reading⟩, facDaq)
                    else (raised true, facDaq)
          else
            (⟨[encode (Status.ok.text ++ packet ++ str "is not exist equipment_id key" ++ crLf)],
              false, some reading⟩, facDaq)

/-- The part of `manage_client` for one packet that is not empty. -/
def servePacket {σ : Type} (documentUpsert : DocumentUpsert σ) (at_ : Surroundings)
    (facDaq : FacDaq) (db : σ) (p : Bytes) : Served × FacDaq × σ :=
  match convertHex2decimal documentUpsert at_.now p at_.host at_.port db with
  | ((.ok, packet, .meta_ reading _ _ now), db) =>
      let (served, facDaq) := serveReading at_ facDaq packet reading now
      (served, facDaq, db)
  | ((status, packet, _), db) =>
      (⟨[encode (status.text ++ packet ++ crLf)], false, none⟩, facDaq, db)

/-- `manage_client` on what the calls of `sock_recv` return. After an empty result the socket is
closed. The peer is there: `getpeername` and `sendall` do not raise. -/
def manageClient {σ : Type} (documentUpsert : DocumentUpsert σ) :
    FacDaq → σ → List (Surroundings × Bytes) → List Served
  | _, _, [] => []
  | facDaq, db, (at_, p) :: packets =>
      if p = [] then []
      else
        let (served, facDaq, db) := servePacket documentUpsert at_ facDaq db p
        served :: manageClient documentUpsert facDaq db packets

/-! ## The answer to a packet -/

/-- One line: it ends with `CR LF`, and has no other `CR` or `LF`. -/
def OneLine (reply : Bytes) : Prop :=
  ∃ line, reply = line ++ [0x0D, 0x0A] ∧ ∀ b ∈ line, b ≠ 0x0A ∧ b ≠ 0x0D

/-- One reply, which is one line and says `OK` when the reading was published and `ER` when it was
not. -/
def AnswersTruly (served : Served) : Prop :=
  ∃ reply, served.replies = [reply] ∧ OneLine reply ∧
    (encode (str "OK") <+: reply ↔ served.published = true) ∧
    (encode (str "ER") <+: reply ↔ served.published = false)

/-- The reading can be published: Redis knows the equipment and the sensor, with a description that
can be a key; the equipment was known when the connection began; and the broker takes it. -/
def Publishable (at_ : Surroundings) (facDaq : FacDaq) (reading : Reading) : Prop :=
  ((((at_.facilities.bind (·.index reading.equipmentId)).bind (·.index reading.sensorCd)).bind
      (·.asKey)).isSome ∧ facDaq.has reading.equipmentId = true) ∧ at_.publishes = true

instance (at_ : Surroundings) (facDaq : FacDaq) (reading : Reading) :
    Decidable (Publishable at_ facDaq reading) := inferInstanceAs (Decidable (_ ∧ _))

theorem encode_ok : encode (str "OK") = [0x4F, 0x4B] := by decide +kernel

theorem encode_er : encode (str "ER") = [0x45, 0x52] := by decide +kernel

theorem encode_crLf : encode crLf = [0x0D, 0x0A] := by decide +kernel

/-- What a status says at the beginning of a reply. -/
theorem begins_status (status : Status) (rest : Str) :
    (encode (str "OK") <+: encode (status.text ++ rest) ↔ status = .ok) ∧
      (encode (str "ER") <+: encode (status.text ++ rest) ↔ status = .er) := by
  rw [encode_append, encode_ok, encode_er]
  cases status with
  | ok => simp [Status.text, encode_ok]
  | er => simp [Status.text, encode_er]

/-- The text of a packet alone says neither. -/
theorem begins_neither (p : Bytes) : ¬ encode (str "OK") <+: encode (reprBytes p) ∧
    ¬ encode (str "ER") <+: encode (reprBytes p) := by
  have b : String.utf8EncodeChar 'b' = [0x62] := by decide +kernel
  rw [encode_ok, encode_er, reprBytes, encode, List.cons_append, List.cons_append,
    List.flatMap_cons, b]
  simp

theorem status_plain (status : Status) : ∀ c ∈ status.text, Plain c := by
  have all : status.text.all (fun c => decide (Plain c)) = true := by
    cases status <;> decide +kernel
  intro c member
  exact of_decide_eq_true (List.all_eq_true.mp all c member)

/-- A status, the text of the packet and `CR LF` are one line. -/
theorem oneLine_reply (status : Status) (p : Bytes) :
    OneLine (encode (status.text ++ reprBytes p ++ crLf)) := by
  refine ⟨encode (status.text ++ reprBytes p), by rw [encode_append, encode_crLf], ?_⟩
  refine encode_plain fun c member => ?_
  rcases List.mem_append.mp member with first | second
  · exact status_plain status c first
  · exact reprBytes_plain p c second

/-- A status, the text of the packet and `CR LF` answer truly when the status tells what happened.
-/
theorem answersTruly_reply (status : Status) (p : Bytes) {published : Bool}
    (tells : status = .ok ↔ published = true) (reading : Option Reading) :
    AnswersTruly ⟨[encode (status.text ++ reprBytes p ++ crLf)], published, reading⟩ := by
  obtain ⟨ok, er⟩ := begins_status status (reprBytes p ++ crLf)
  rw [← List.append_assoc] at ok er
  refine ⟨_, rfl, oneLine_reply status p, ok.trans tells, er.trans ?_⟩
  cases status <;> cases published <;> simp_all

/-- The text of the packet alone is no true answer. -/
theorem not_answersTruly_raised (p : Bytes) (published : Bool) (reading : Option Reading) :
    ¬ AnswersTruly ⟨[encode (reprBytes p)], published, reading⟩ := by
  rintro ⟨reply, same, -, ok, er⟩
  obtain rfl : encode (reprBytes p) = reply := List.singleton_inj.mp same
  obtain ⟨notOk, notEr⟩ := begins_neither p
  cases published with
  | true => exact notOk (ok.mpr rfl)
  | false => exact notEr (er.mpr rfl)

/-- An answer that begins with `OK` is not true when nothing was published. -/
theorem not_answersTruly_ok (rest : Str) (reading : Option Reading) :
    ¬ AnswersTruly ⟨[encode (Status.ok.text ++ rest)], false, reading⟩ := by
  rintro ⟨reply, same, -, ok, -⟩
  obtain rfl : encode (Status.ok.text ++ rest) = reply := List.singleton_inj.mp same
  have published := ok.mp ((begins_status .ok rest).1.mpr rfl)
  cases published

/-- `config_fac_msg` makes a message of a reading whose sensor has a description that can be a
key, for an equipment of the table. -/
theorem configFacMsg_isSome (equipmentId : Str) (facDaq : FacDaq) (reading : Reading) (now : Now)
    (info : Json) :
    (configFacMsg equipmentId facDaq reading now info).2.isSome ↔
      (((info.index equipmentId).bind (·.index reading.sensorCd)).bind (·.asKey)).isSome ∧
        facDaq.has equipmentId = true := by
  unfold configFacMsg Dict.has
  cases (info.index equipmentId).bind (·.index reading.sensorCd) with
  | none => simp
  | some desc =>
      cases facDaq.get? equipmentId with
      | none => simp
      | some values =>
          cases asKey : desc.asKey with
          | none => simp [asKey]
          | some key => simp [asKey]

/-- The answer to a reading is true exactly when it can be published. -/
theorem answersTruly_serveReading (at_ : Surroundings) (facDaq : FacDaq) (p : Bytes)
    (reading : Reading) (now : Now) :
    AnswersTruly (serveReading at_ facDaq (reprBytes p) reading now).1 ↔
      Publishable at_ facDaq reading := by
  unfold serveReading Publishable
  cases facilities : at_.facilities with
  | none => simpa using not_answersTruly_raised p false (some reading)
  | some info =>
      have makes := configFacMsg_isSome reading.equipmentId facDaq reading now info
      rw [Option.bind_some, ← makes]
      cases members : info.members with
      | none =>
          have unmade : ¬ (configFacMsg reading.equipmentId facDaq reading now info).2.isSome := by
            rw [makes]
            simp [Json.index, members]
          simp only [members]
          exact iff_of_false (not_answersTruly_raised p false (some reading))
            fun both => unmade both.1
      | some list =>
          simp only [members]
          split
          · split
            · rename_i daq made
              exact iff_of_false (not_answersTruly_raised p false (some reading))
                fun both => by simp [made] at both
            · rename_i daq facMsg made
              cases broker : at_.publishes with
              | false =>
                  simpa [publishFacilityMsg] using not_answersTruly_raised p false (some reading)
              | true =>
                  simpa [publishFacilityMsg, made] using
                    answersTruly_reply .ok p (by simp) (some reading)
          · rename_i unknown
            have unmade : ¬ (configFacMsg reading.equipmentId facDaq reading now info).2.isSome := by
              rw [makes]
              have missing : list.lookup reading.equipmentId = none :=
                Option.not_isSome_iff_eq_none.mp unknown
              simp [Json.index, members, missing]
            refine iff_of_false ?_ fun both => unmade both.1
            rw [List.append_assoc, List.append_assoc]
            exact not_answersTruly_ok _ (some reading)

/-- **A packet is answered truly exactly when it is not decoded, or the log does not take it, or
its reading can be published.** -/
theorem answersTruly_iff {σ : Type} (documentUpsert : DocumentUpsert σ) (at_ : Surroundings)
    (facDaq : FacDaq) (db : σ) (p : Bytes) :
    AnswersTruly (servePacket documentUpsert at_ facDaq db p).1 ↔
      (Decodes p → (documentUpsert (str "facility") (readingOf p).equipmentId at_.now.docKey
        at_.now.pubTime db).2 = true → Publishable at_ facDaq (readingOf p)) := by
  unfold servePacket
  rw [convertHex2decimal_eq]
  by_cases decodes : Decodes p
  · rw [if_pos decodes]
    dsimp only
    by_cases logged : (documentUpsert (str "facility") (readingOf p).equipmentId at_.now.docKey
        at_.now.pubTime db).2 = true
    · rw [if_pos logged]
      simp only [decodes, logged, true_implies]
      exact answersTruly_serveReading at_ facDaq p (readingOf p) at_.now
    · rw [if_neg logged]
      refine iff_of_true ?_ fun _ returned => absurd returned logged
      exact answersTruly_reply .er p (by simp) none
  · rw [if_neg decodes]
    refine iff_of_true ?_ fun some_ => absurd some_ decodes
    exact answersTruly_reply .er p (by simp) none

/-- A packet of TS0001: sensor 1 with the value 230. -/
def packetTs0001 : Bytes :=
  [2, 0, 0, 0, 0, 0x54, 0x53, 0, 1, 0, 1, 0x50, 0x56, 0, 0, 0, 230, 1, 3]

/-- Redis with the facilities given, and a broker that takes a message or does not. -/
def redisWith (facilities : Json) (publishes : Bool) : Surroundings :=
  ⟨[], 0, ⟨0, [], []⟩, some facilities, publishes⟩

/-- TS0001 with its first sensor. -/
def facilityTs0001 : Json :=
  .object [(str "TS0001", .object [(str "0001", .string (str "TS_VOLT1_(RS)"))])]

/-- The table of a connection that began when Redis held `facilityTs0001`. -/
def daqTs0001 : FacDaq := ⟨[(str "TS0001", ⟨[(.string (str "TS_VOLT1_(RS)"), .quotient 0 0)]⟩)]⟩

/-- **Two untrue answers.** A packet of an equipment that Redis does not know is answered with
`OK`; a reading that the broker does not take is answered with the text of the packet. -/
theorem untrue_answers :
    ¬ AnswersTruly (servePacket (fun _ _ _ _ db => (db, true)) (redisWith (.object []) true)
        daqTs0001 () packetTs0001).1 ∧
      ¬ AnswersTruly (servePacket (fun _ _ _ _ db => (db, true)) (redisWith facilityTs0001 false)
        daqTs0001 () packetTs0001).1 := by
  have unknown : (servePacket (fun _ _ _ _ db => (db, true)) (redisWith (.object []) true)
      daqTs0001 () packetTs0001).1 = ⟨[encode (Status.ok.text ++ (reprBytes packetTs0001 ++
        str "is not exist equipment_id key" ++ crLf))], false, some (readingOf packetTs0001)⟩ := by
    decide +kernel
  have unpublished : (servePacket (fun _ _ _ _ db => (db, true)) (redisWith facilityTs0001 false)
      daqTs0001 () packetTs0001).1 =
        ⟨[encode (reprBytes packetTs0001)], false, some (readingOf packetTs0001)⟩ := by
    decide +kernel
  rw [unknown, unpublished]
  exact ⟨not_answersTruly_ok _ _, not_answersTruly_raised _ _ _⟩

end WhaleShark.Server

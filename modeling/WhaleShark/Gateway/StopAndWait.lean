import WhaleShark.Gateway.Reactions

/-!
# One packet at a time

`SendData` takes a packet only while the network status is `STATUS_STANDBY_SEND`, and taking it
changes the status. What brings the status back is the acknowledgement of the server, or a
connection where there was none (`packets_wait`).

The status is also overwritten with the data of every message, and a packet that is laid over
`networkInfoData` puts the bytes of a sensor where the status stands. Bytes 1 to 4 of a packet are
the time, which is zero, so no packet reads as `STATUS_STANDBY_SEND`, whether the compiler gives an
enumeration one byte or four (`statusAt_sentAt`). No state of the Wi-Fi side is that status either.
-/

set_option autoImplicit false

namespace WhaleShark

open Foundations Network

/-! ## A status laid over bytes -/

/-- The enumeration, in its order. -/
def networkStatuses : List NetworkStatus :=
  [.none, .wifiRestart, .echoOff, .setRfpower, .disableSleepMode, .checkWifiMode, .getWifiMode,
    .setWifiMode, .connectWifi, .setDhcp, .queryDhcpInfo, .getDhcpInfo, .queryApInfo, .getApInfo,
    .setLocalInfo, .queryLocalInfo, .getLocalInfo, .disconnectWifi, .tcpConnect, .setSendDataLength,
    .readyToSendData, .sendData, .waitAck, .standbySend, .continuousSend, .queryMacInfo, .getMacInfo,
    .setMacInfo, .receiveData, .refuseData, .tcpDisconnect]

/-- How many bytes the compiler gives a `NetworkStatus`. -/
inductive EnumWidth where
  | one
  | four
  deriving DecidableEq, Repr

/-- The status that stands in bytes laid over `NetworkInfoData`: behind the byte `response`, or, as
a word, at the next multiple of four. -/
def EnumWidth.statusAt (bytes : List UInt8) : EnumWidth → Option NetworkStatus
  | .one => networkStatuses[(byteAt bytes 1).toNat]?
  | .four =>
      networkStatuses[(ofLeBytes32 (byteAt bytes 4) (byteAt bytes 5) (byteAt bytes 6)
        (byteAt bytes 7)).toNat]?

/-- The site's compiler gives the enumeration this width. -/
def LaysOut (site : Site) (width : EnumWidth) : Prop :=
  ∀ bytes : List UInt8, 8 ≤ bytes.length → (site.laidOver bytes).1 = width.statusAt bytes

/-- The status is `STATUS_STANDBY_SEND` only at its number. -/
theorem getElem?_networkStatuses {n : ℕ} (standby : networkStatuses[n]? = some .standbySend) :
    n = 23 := by
  have distinct : networkStatuses.Nodup := by decide
  have inside : n < networkStatuses.length := (List.getElem?_eq_some_iff.mp standby).1
  exact (List.getElem?_inj inside distinct).mp (standby.trans rfl)

namespace Plc

/-- A row of packets is empty or begins with a packet. -/
theorem packetsOf_begins (turn : UInt16 → Bool) (devInfo : Block UInt8 4) (devType : DevType)
    (pData : List UInt8) (fields : List Field) (begin_ : ℕ) :
    packetsOf turn devInfo devType pData fields begin_ = [] ∨
      ∃ code value rest, packetsOf turn devInfo devType pData fields begin_ =
        sensorPacket devInfo devType code value ++ rest := by
  induction fields generalizing begin_ with
  | nil => exact .inl rfl
  | cons f fields ih =>
      rw [packetsOf]
      split
      · exact .inr ⟨f.1, pData.drop begin_, _, rfl⟩
      · exact ih _

theorem payload_begins (devInfo : Block UInt8 4) (devType : DevType) (sensorCodeCount : UInt16)
    (pData : List UInt8) :
    payload devInfo devType sensorCodeCount pData = [] ∨
      ∃ code value rest, payload devInfo devType sensorCodeCount pData =
        sensorPacket devInfo devType code value ++ rest := by
  unfold payload
  rcases packetsOf_begins (· == sensorCodeCount) devInfo devType pData commonFields 1 with
    empty | ⟨code, value, rest, begins⟩
  · rw [empty, List.nil_append]
    split
    · exact packetsOf_begins _ _ _ _ _ _
    · exact packetsOf_begins _ _ _ _ _ _
  · rw [begins, List.append_assoc]
    exact .inr ⟨code, value, _, rfl⟩

/-- What is passed to `SendData` is long enough for a status to be laid over it, also where the
length was cut. -/
theorem length_sentAt_ge {devInfo : Block UInt8 4} {devType : DevType} {sensorCodeCount : UInt16}
    {pData bytes : List UInt8} (sent : sentAt devInfo devType sensorCodeCount pData = some bytes) :
    8 ≤ bytes.length := by
  have some_ := length_sentAt_pos sent
  obtain ⟨n, few, length⟩ : ∃ n, n ≤ 19 ∧
      (payload devInfo devType sensorCodeCount pData).length = packetLen * n := by
    have common := List.countP_le_length (p := fun f : Field => f.1 == sensorCodeCount)
      (l := commonFields)
    have own := List.countP_le_length (p := fun f : Field => f.1 == sensorCodeCount) (l := tsFields)
    have six : commonFields.length = 6 := rfl
    have five : tsFields.length = 5 := rfl
    have thirteen : tkFields.countP (fun _ => true) = 13 := rfl
    rw [payload, List.length_append, length_packetsOf]
    split
    · rw [length_packetsOf, ← Nat.mul_add]
      exact ⟨_, by omega, rfl⟩
    · rw [length_packetsOf, ← Nat.mul_add]
      exact ⟨_, by omega, rfl⟩
  have cut : (payload devInfo devType sensorCodeCount pData).length.toUInt8.toNat =
      packetLen * n % 256 := by rw [length]; rfl
  simp only [sentAt] at sent
  split at sent
  · cases sent
    rw [List.length_take, cut, length] at some_ ⊢
    simp only [packetLen] at some_ ⊢
    interval_cases n <;> omega
  · cases sent

/-- Behind the `STX` of what is passed to `SendData` stand four zeros. -/
theorem zeros_of_sentAt {devInfo : Block UInt8 4} {devType : DevType} {sensorCodeCount : UInt16}
    {pData bytes : List UInt8} (sent : sentAt devInfo devType sensorCodeCount pData = some bytes)
    {i : ℕ} (low : 1 ≤ i) (high : i ≤ 4) : byteAt bytes i = 0 := by
  have length := length_sentAt_ge sent
  simp only [sentAt] at sent
  split at sent
  · cases sent
    rw [List.length_take] at length
    rw [byteAt_take (by omega)]
    rcases payload_begins devInfo devType sensorCodeCount pData with empty | ⟨code, value, rest, begins⟩
    · rw [empty] at length
      simp at length
    · rw [begins, byteAt_append_left (by rw [length_sensorPacket, packetLen]; omega), sensorPacket]
      interval_cases i <;> rfl
  · cases sent

end Plc

/-- **No packet reads as `STATUS_STANDBY_SEND`.** -/
theorem statusAt_sentAt {devInfo : Block UInt8 4} {devType : Plc.DevType} {sensorCodeCount : UInt16}
    {pData bytes : List UInt8}
    (sent : Plc.sentAt devInfo devType sensorCodeCount pData = some bytes) (width : EnumWidth) :
    width.statusAt bytes ≠ some .standbySend := by
  intro standby
  cases width with
  | one =>
      have number := getElem?_networkStatuses standby
      rw [Plc.zeros_of_sentAt sent (by decide) (by decide)] at number
      cases number
  | four =>
      have number := getElem?_networkStatuses standby
      have value : 23 = (23 : UInt32).toNat := rfl
      have low := congrArg UInt32.toUInt8 (UInt32.toNat_inj.mp (number.trans value))
      rw [toUInt8_ofLeBytes32, Plc.zeros_of_sentAt sent (by decide) (by decide)] at low
      exact absurd low (by decide)

/-! ## Taking a packet, and what has to come before the next one -/

/-- What the PLC thread passes to `SendData` in this step. -/
def passedIn (τ : GatewayTransition) : Option (List UInt8) := (madeIn τ).bind (·.sent)

/-- `SendData` takes what is passed to it, whether the queue has room or not. -/
def Accepts (τ : GatewayTransition) : Prop :=
  (∃ bytes, passedIn τ = some bytes ∧ 0 < bytes.length) ∧
    τ.source.manager.networkStatus = some .standbySend

/-- The manager handles the acknowledgement of the server, or a connection where there was none. -/
def Releases (site : Site) (τ : GatewayTransition) : Prop :=
  ∃ message, handledIn τ = some message ∧ message.messge = .wifiOk ∧
    ((site.laid message.data).1 = some .receiveData ∨
      ((site.laid message.data).1 = some .tcpConnect ∧ τ.source.getTcpStatus = disable))

/-- The threads have been started: nothing is queued, and nothing has been received. -/
structure Starts (g : Gateway) : Prop where
  queue : g.networkManagerMq.items = []
  manager : g.manager.networkStatus = some .none
  wifi : g.wifi.wifi.networkInfoData.networkStatus = .wifiRestart
  mqData : g.wifi.wifi.mqData = initWifi.mqData

theorem startGateway_starts (site : Site) : Starts (startGateway site) := ⟨rfl, rfl, rfl, rfl⟩

/-- No message that is queued, and none that can be, reads as `STATUS_STANDBY_SEND`. -/
structure Guarded (site : Site) (g : Gateway) : Prop where
  queue : ∀ message ∈ g.networkManagerMq.items,
    (site.laid message.data).1 ≠ some .standbySend
  wifi : g.wifi.wifi.networkInfoData.networkStatus ≠ .standbySend
  mqData : (site.laid g.wifi.wifi.mqData.data).1 ≠ some .standbySend

theorem Starts.guarded {site : Site} {g : Gateway} (starts : Starts g) : Guarded site g where
  queue := by simp [starts.queue]
  wifi := by simp [starts.wifi]
  mqData := by
    rw [starts.mqData]
    simp [initWifi, Site.laid]

/-! ## One step -/

theorem Network.Moves.ne_standbySend {a b : NetworkStatus} (moves : Moves a b)
    (before : a ≠ .standbySend) : b ≠ .standbySend := by
  cases moves with
  | same => exact before
  | reports said =>
      rintro rfl
      simp [reported] at said
  | prompted => simp

theorem Reaction.announces_ne_standbySend (r : Reaction) : r.announces ≠ some .standbySend := by
  cases r with
  | command id => cases id <;> simp [announces, commandStatus]
  | _ => simp [announces]

/-- What a turn of the PLC thread passes on was made by `MakeSensorPayloadData`. -/
theorem Plc.passed_sentAt {t t' : PlcThread} {rx inc : Bool} {reads : List (List UInt8)}
    {made : Option Packetised} {bytes : List UInt8}
    (turn : plccommRx t rx inc reads = some (t', made)) (passed : made.bind (·.sent) = some bytes) :
    ∃ devInfo devType sensorCodeCount pData,
      sentAt devInfo devType sensorCodeCount pData = some bytes := by
  rcases plccommRx_due turn with ⟨-, rfl, -⟩ | ⟨-, s, -, -, rfl⟩
  · cases passed
  · rw [Option.bind_some, packetise_output] at passed
    exact ⟨_, _, _, _, passed⟩

theorem guarded_wifi {site : Site} {g : Gateway} {e : WifiEvent} {wifi : WifiThread}
    {output : WifiOutput} (step : WifiStep site.toSurroundings g.wifi e wifi output)
    (own : ∀ call, e ≠ .store call) (before : Guarded site g) :
    Guarded site (g.behindWifi e wifi output) := by
  by_cases silent : ∀ message, output ≠ .message message
  · obtain ⟨mqData, status⟩ := step.silent_tells silent own
    refine ⟨?_, ?_, ?_⟩
    · rw [Gateway.networkManagerMq_behindWifi g e wifi silent]
      exact before.queue
    · rw [Gateway.wifi_behindWifi]
      exact status.ne_standbySend before.wifi
    · rw [Gateway.wifi_behindWifi, mqData]
      exact before.mqData
  · obtain ⟨message, rfl⟩ := not_forall_not.mp silent
    obtain ⟨mqData, status, carries⟩ := step.message_carries
    have here : (site.laid message.data).1 ≠ some .standbySend := by
      rcases carries with ⟨info, data, same⟩ | ⟨-, rfl⟩
      · rw [data, Site.laid, same]
        exact fun standby => before.wifi (Option.some_inj.mp standby)
      · exact before.mqData
    refine ⟨?_, ?_, ?_⟩
    · intro m member
      rw [Gateway.items_behindWifi] at member
      split at member
      · rcases List.mem_append.mp member with queued | last
        · exact before.queue m queued
        · rw [List.mem_singleton.mp last]
          exact here
      · exact before.queue m member
    · rw [Gateway.wifi_behindWifi, status]
      exact before.wifi
    · rw [Gateway.wifi_behindWifi, mqData]
      exact here

theorem guarded_plc {site : Site} {width : EnumWidth} (lays : LaysOut site width) {g : Gateway}
    {rx : Bool} {reads : List (List UInt8)} {t : Plc.PlcThread} {made : Option Plc.Packetised}
    (turn : Plc.plccommRx g.plc rx g.incData reads = some (t, made)) (before : Guarded site g) :
    Guarded site (g.behindPlc t made) := by
  refine ⟨?_, ?_, ?_⟩
  · intro message member
    rw [Gateway.behindPlc] at member
    cases passed : made.bind (·.sent) with
    | none =>
        rw [passed] at member
        exact before.queue message member
    | some bytes =>
        obtain ⟨devInfo, devType, sensorCodeCount, pData, sent⟩ := Plc.passed_sentAt turn passed
        simp only [passed, Gateway.items_sendData] at member
        split at member
        · rcases List.mem_append.mp member with queued | last
          · exact before.queue message queued
          · rw [List.mem_singleton.mp last, packetMessage, Site.laid,
              lays bytes (Plc.length_sentAt_ge sent)]
            exact statusAt_sentAt sent width
        · exact before.queue message member
  · rw [Gateway.wifi_behindPlc]
    exact before.wifi
  · rw [Gateway.wifi_behindPlc]
    exact before.mqData

theorem guarded_step {site : Site} {width : EnumWidth} (lays : LaysOut site width)
    {τ : GatewayTransition} (takes : (gateway site).Takes τ) (before : Guarded site τ.source) :
    Guarded site τ.target := by
  obtain ⟨g, e, o, g'⟩ := τ
  have step : GatewayStep site g e g' := (gateway_cases takes).2
  cases step with
  | wifi step own => exact guarded_wifi step own before
  | plc turn => exact guarded_plc lays turn before
  | @handle message queue popped =>
      have items := Fifo.items_of_pop popped
      refine ⟨?_, ?_, ?_⟩
      · rw [Gateway.networkManagerMq_handle]
        intro m member
        exact before.queue m (by rw [items]; exact List.mem_cons_of_mem _ member)
      · rw [Gateway.wifiStatus_handle]
        cases announced : (Gateway.reactionTo site { g with networkManagerMq := queue }
            message).announces with
        | none => exact before.wifi
        | some status =>
            rintro rfl
            exact Reaction.announces_ne_standbySend _ announced
      · rw [Gateway.mqData_handle]
        exact before.mqData
  | responseTimeout => exact ⟨before.queue, before.wifi, before.mqData⟩

/-- A message that is handled does not read as `STATUS_STANDBY_SEND`. -/
theorem Guarded.handled {site : Site} {τ : GatewayTransition} {message : MqData}
    (before : Guarded site τ.source) (takes : (gateway site).Takes τ)
    (handled : handledIn τ = some message) : (site.laid message.data).1 ≠ some .standbySend := by
  obtain ⟨queue, items, -⟩ := handle_of_handledIn takes handled
  exact before.queue message (by rw [items]; exact List.mem_cons_self)

theorem not_accepts_of_none {τ : GatewayTransition} (nothing : passedIn τ = none) :
    ¬ Accepts τ := by
  rintro ⟨⟨bytes, passed, -⟩, -⟩
  rw [nothing] at passed
  cases passed

/-- Behind a step that takes no packet, the status is what it was, or the next packet is released. -/
theorem standsBy_step {site : Site} {τ : GatewayTransition} (takes : (gateway site).Takes τ)
    (before : Guarded site τ.source)
    (standsBy : τ.target.manager.networkStatus = some .standbySend) :
    ¬ Accepts τ ∧
      (τ.source.manager.networkStatus = some .standbySend ∨ Releases site τ) := by
  obtain ⟨g, e, o, g'⟩ := τ
  have step : GatewayStep site g e g' := (gateway_cases takes).2
  cases step with
  | wifi =>
      refine ⟨not_accepts_of_none rfl, .inl ?_⟩
      rw [← standsBy, Gateway.manager_behindWifi]
  | @plc rx reads t made turn =>
      have passes : passedIn ⟨g, .plc rx reads, o, g.behindPlc t made⟩ = made.bind (·.sent) := by
        simp only [passedIn, madeIn, turn, Option.bind_some]
      simp only [Gateway.behindPlc] at standsBy
      cases passed : made.bind (·.sent) with
      | none =>
          rw [passed] at standsBy
          exact ⟨not_accepts_of_none (passes.trans passed), .inl standsBy⟩
      | some bytes =>
          simp only [passed, Gateway.manager_sendData] at standsBy
          split at standsBy
          · simp at standsBy
          · rename_i refused
            refine ⟨?_, .inl standsBy⟩
            rintro ⟨⟨bytes', some_, long⟩, -⟩
            rw [passes, passed] at some_
            cases some_
            exact refused ⟨long, standsBy⟩
  | @handle message queue popped =>
      have handled : handledIn ⟨g, .handle, o, Gateway.handle site
          { g with networkManagerMq := queue } message⟩ = some message := handledIn_handle popped
      have other := before.handled takes handled
      refine ⟨not_accepts_of_none rfl, .inr ?_⟩
      rw [Gateway.managerStatus_handle] at standsBy
      have leads := Gateway.reactionTo_leads site { g with networkManagerMq := queue } message
      generalize Gateway.reactionTo site { g with networkManagerMq := queue } message = r
        at standsBy leads
      cases leads with
      | acknowledged code received => exact ⟨message, handled, code, .inl received⟩
      | connected code named off => exact ⟨message, handled, code, .inr ⟨named, off⟩⟩
      | awaits => simp [Reaction.standsAt] at standsBy
      | _ => exact absurd standsBy other
  | responseTimeout => exact ⟨not_accepts_of_none rfl, .inl standsBy⟩

/-! ## A run -/

/-- While the manager stands by, a release has come behind each packet that was taken. -/
def Waits (site : Site) (past : List GatewayTransition) (g : Gateway) : Prop :=
  Guarded site g ∧
    (g.manager.networkStatus = some .standbySend → Cleared Accepts (Releases site) past)

theorem Waits.step {site : Site} {width : EnumWidth} (lays : LaysOut site width)
    {past : List GatewayTransition} {τ : GatewayTransition} (takes : (gateway site).Takes τ)
    (before : Waits site past τ.source) : Waits site (past ++ [τ]) τ.target := by
  obtain ⟨guarded, cleared⟩ := before
  refine ⟨guarded_step lays takes guarded, fun standsBy => ?_⟩
  obtain ⟨none_, earlier⟩ := standsBy_step takes guarded standsBy
  exact cleared_concat.mpr ⟨none_, earlier.imp_left cleared⟩

/-- **One packet at a time.** Between any two packets that `SendData` takes, the manager handles the
acknowledgement of the server or a connection where there was none; and no message that it handles
lays `STATUS_STANDBY_SEND` over the status. -/
theorem packets_wait {site : Site} {width : EnumWidth} (lays : LaysOut site width)
    {first last : Gateway} {taken : List GatewayTransition} (starts : Starts first)
    (run : (gateway site).Run first taken last) :
    Separated Accepts (Releases site) taken ∧
      ∀ τ ∈ taken, ∀ message, handledIn τ = some message →
        (site.laid message.data).1 ≠ some .standbySend := by
  have initial : Waits site [] first := ⟨starts.guarded, fun _ => cleared_nil⟩
  obtain ⟨-, along⟩ := run.invariant (Waits site) initial
    fun _ _ takes before => before.step lays takes
  constructor
  · refine separated_iff.mpr fun past τ rest split accepts => ?_
    exact (along past τ rest split).2 accepts.2
  · intro τ member message handled
    obtain ⟨past, rest, split⟩ := List.append_of_mem member
    exact (along past τ rest split).1.handled (run.takes τ member) handled

/-- The site whose compiler gives the enumeration this width. -/
def siteOfWidth (width : EnumWidth) : Site :=
  { someSurroundings with
    laidOver := fun bytes => (width.statusAt bytes, (Block.fill 128 0).write 0 (bytes.drop 2)) }

theorem siteOfWidth_laysOut (width : EnumWidth) : LaysOut (siteOfWidth width) width :=
  fun _ _ => rfl

instance (τ : GatewayTransition) : Decidable (Accepts τ) :=
  decidable_of_iff ((passedIn τ).any (fun bytes => decide (0 < bytes.length)) = true ∧
    τ.source.manager.networkStatus = some .standbySend) (by simp [Accepts, Option.any_eq_true])

/-- Two packets of a frame, with an enumeration of four bytes. -/
theorem packets_wait_two : ∃ taken last,
    (gateway (siteOfWidth .four)).Run (startGateway (siteOfWidth .four)) taken last ∧
      Separated Accepts (Releases (siteOfWidth .four)) taken ∧
      (taken.filter fun τ => Accepts τ).length = 2 := by
  obtain ⟨taken, last, run, passed⟩ := (gateway (siteOfWidth .four)).exists_run_of_passes
    (startGateway (siteOfWidth .four)) (connecting ++ [frameArrives] ++ packetSent ++ [.plc false []])
    (fun taken _ => (taken.filter fun τ => Accepts τ).length = 2) (by decide +kernel)
  exact ⟨taken, last, run, (packets_wait (siteOfWidth_laysOut .four) (startGateway_starts _) run).1,
    of_decide_eq_true passed⟩

end WhaleShark

import WhaleShark.Gateway.HandOver
import WhaleShark.Gateway.PlcCycle

/-!
# Whether the gateway waits for a frame when it waits for nothing else

A gateway that has a connection and for which nothing is pending only goes on when a PLC frame comes,
and a frame gets it on only if the manager stands by at the first sensor's turn. Otherwise it
is stuck, and nothing reboots it.

A step leaves a gateway that was not stuck in a state in which it is stuck exactly if it is not
`Attended`: the last thing that was pending was a message that the manager ignores, an
`SMSG_INC_DATA` that found a manager not standing by, or a timer that a meaningless `+IPD` stopped
(`notStuck_iff`). So a gateway is never stuck in a run exactly if all steps are attended
(`never_stuck_iff`). The way back from an `ERROR` is not: the `OK` for the new connection
is ignored because the TCP flag is still set (`gateway_is_stuck`).
-/

set_option autoImplicit false

namespace WhaleShark

open Foundations Network

/-- Nothing is pending. -/
structure Quiet (g : Gateway) : Prop where
  queue : g.networkManagerMq.items = []
  transmitted : g.untransmitted = 0
  answered : g.unanswered = 0
  posted : g.wifi.wifi.networkInfoData.response = .responseMax
  wifiTimeoutTimer : g.wifi.wifi.wifiTimeoutTimer = false
  sendTimeoutTimer : g.wifi.wifi.sendTimeoutTimer = false
  responseTimeoutTimer : g.manager.responseTimeoutTimer = false
  incData : g.incData = false

instance (g : Gateway) : Decidable (Quiet g) :=
  decidable_of_iff
    (g.networkManagerMq.items = [] ∧ g.untransmitted = 0 ∧ g.unanswered = 0 ∧
      g.wifi.wifi.networkInfoData.response = .responseMax ∧
      g.wifi.wifi.wifiTimeoutTimer = false ∧ g.wifi.wifi.sendTimeoutTimer = false ∧
      g.manager.responseTimeoutTimer = false ∧ g.incData = false)
    ⟨fun ⟨queue, transmitted, answered, posted, wifiTimer, sendTimer, timer, inc⟩ =>
        ⟨queue, transmitted, answered, posted, wifiTimer, sendTimer, timer, inc⟩,
      fun ⟨queue, transmitted, answered, posted, wifiTimer, sendTimer, timer, inc⟩ =>
        ⟨queue, transmitted, answered, posted, wifiTimer, sendTimer, timer, inc⟩⟩

theorem Quiet.of_same {g g' : Gateway} (quiet : Quiet g)
    (queue : g'.networkManagerMq = g.networkManagerMq)
    (untransmitted : g'.untransmitted = g.untransmitted) (unanswered : g'.unanswered = g.unanswered)
    (wifi : g'.wifi.wifi = g.wifi.wifi)
    (timer : g'.manager.responseTimeoutTimer = g.manager.responseTimeoutTimer)
    (inc : g'.incData = g.incData) : Quiet g' where
  queue := queue ▸ quiet.queue
  transmitted := untransmitted.trans quiet.transmitted
  answered := unanswered.trans quiet.answered
  posted := wifi ▸ quiet.posted
  wifiTimeoutTimer := wifi ▸ quiet.wifiTimeoutTimer
  sendTimeoutTimer := wifi ▸ quiet.sendTimeoutTimer
  responseTimeoutTimer := timer.trans quiet.responseTimeoutTimer
  incData := inc.trans quiet.incData

/-- The next valid frame is taken, and its first packet queued. -/
def AwaitsFrame (g : Gateway) : Prop :=
  g.manager.networkStatus = some .standbySend ∧ g.plc.sensorCodeCount = 1

instance (g : Gateway) : Decidable (AwaitsFrame g) := inferInstanceAs (Decidable (_ ∧ _))

/-- A gateway that has a connection and for which nothing is pending awaits a frame. -/
def NotStuck (g : Gateway) : Prop :=
  g.rebooted = false → g.getTcpStatus = enable → Quiet g → AwaitsFrame g

/-- A read that leaves nothing pending: it stops the timer for the server and recognises no
response. -/
def Silences (site : Site) (g : Gateway) (bytes : List UInt8) : Prop :=
  let read := (readBytes site.toSurroundings g.wifi bytes).1.wifi
  read.sendTimeoutTimer = false ∧ read.networkInfoData.response = .responseMax ∧
    Quiet { g with wifi := { g.wifi with wifi := { g.wifi.wifi with sendTimeoutTimer := false } } }

/-- What the manager takes last is something it does something about, or it stands by at the first
sensor's turn behind it. -/
def AttendsTo (site : Site) (g : Gateway) (message : MqData) : Prop :=
  Quiet g →
    match g.attentionTo site message with
    | .acts => True
    | .connects => g.plc.sensorCodeCount = 1
    | .ignores => g.getTcpStatus = enable → AwaitsFrame (g.lay site message)

/-- The step does not leave the gateway with nothing to go on with. -/
def Attended (site : Site) (τ : GatewayTransition) : Prop :=
  match τ.event with
  | .wifi (.read bytes) =>
      bytes ≠ [] → τ.source.getTcpStatus = enable → Silences site τ.source bytes →
        AwaitsFrame τ.source
  | .plc _ _ =>
      τ.source.incData = true → τ.source.getTcpStatus = enable →
        Quiet { τ.source with incData := false } →
          τ.source.manager.networkStatus = some .standbySend
  | .handle =>
      ∀ message queue, τ.source.networkManagerMq.pop = some (message, queue) →
        AttendsTo site { τ.source with networkManagerMq := queue } message
  | _ => True

/-- The gateway serves a TS: it is the turn of one of its eleven sensors. -/
structure ServesTs (g : Gateway) : Prop where
  device : g.plc.info.devType = .ts
  low : 1 ≤ g.plc.sensorCodeCount.toNat
  high : g.plc.sensorCodeCount.toNat ≤ 11

/-- What a gateway awaits for which nothing else is pending, it takes: a turn that goes on to the
second sensor has queued the packet of the first. -/
theorem frame_is_taken {site : Site} {g g' : Gateway} {rx : Bool} {reads : List (List UInt8)}
    {o : Unit} (takes : (gateway site).Takes ⟨g, .plc rx reads, o, g'⟩)
    (device : g.plc.info.devType = .ts) (awaits : AwaitsFrame g) (quiet : Quiet g) :
    HandsOver ⟨g, .plc rx reads, o, g'⟩ := by
  refine (handsOver_iff takes).mpr fun _ => ⟨awaits.1, ?_, ?_⟩
  · rw [quiet.queue]
    decide
  · rw [awaits.2, device]
    decide

/-! ## Steps that leave something pending -/

theorem notStuck_of_pending {g : Gateway} (pending : ¬ Quiet g) : NotStuck g :=
  fun _ _ quiet => absurd quiet pending

theorem queue_networkMangerSendMessage (g : Gateway) (message : MqData) :
    (g.networkMangerSendMessage message).networkManagerMq.items ≠ [] := by
  rw [Gateway.items_networkMangerSendMessage]
  split
  · simp
  · rename_i full
    intro empty
    rw [empty] at full
    exact full (by decide)

theorem sends_not_quiet (g : Gateway) (message : MqData) :
    ¬ Quiet (g.networkMangerSendMessage message) :=
  fun quiet => queue_networkMangerSendMessage g message quiet.queue

/-! ## A step of the Wi-Fi side -/

theorem notStuck_read_iff {site : Site} {g : Gateway} {o : Unit} {bytes : List UInt8}
    (some_ : bytes ≠ []) (runs : g.rebooted = false) :
    NotStuck (g.behindWifi (.read bytes) (readBytes site.toSurroundings g.wifi bytes).1
        (.answers (readBytes site.toSurroundings g.wifi bytes).2)) ↔
      Attended site ⟨g, .wifi (.read bytes), o,
        g.behindWifi (.read bytes) (readBytes site.toSurroundings g.wifi bytes).1
          (.answers (readBytes site.toSurroundings g.wifi bytes).2)⟩ := by
  obtain ⟨-, timer, response⟩ := parserWifiData_keeps site.toSurroundings (g.wifi.filled bytes)
    (g.wifi.uRemain + bytes.length)
  constructor
  · rintro notStuck - connected ⟨sendTimer, posted, quiet⟩
    refine notStuck runs connected ?_
    exact
      { queue := quiet.queue
        transmitted := quiet.transmitted
        answered := quiet.answered
        posted := posted
        wifiTimeoutTimer := timer.trans quiet.wifiTimeoutTimer
        sendTimeoutTimer := sendTimer
        responseTimeoutTimer := quiet.responseTimeoutTimer
        incData := quiet.incData }
  · intro attended _ connected quiet
    refine attended some_ connected ⟨quiet.sendTimeoutTimer, quiet.posted, ?_⟩
    exact
      { queue := quiet.queue
        transmitted := quiet.transmitted
        answered := quiet.answered
        posted := response quiet.posted
        wifiTimeoutTimer := timer.symm.trans quiet.wifiTimeoutTimer
        sendTimeoutTimer := rfl
        responseTimeoutTimer := quiet.responseTimeoutTimer
        incData := quiet.incData }

theorem notStuck_wifi_iff {site : Site} {g : Gateway} {e : WifiEvent} {o : Unit}
    {wifi : WifiThread} {output : WifiOutput}
    (step : WifiStep site.toSurroundings g.wifi e wifi output) (own : ∀ call, e ≠ .store call)
    (before : NotStuck g) (runs : g.rebooted = false) :
    NotStuck (g.behindWifi e wifi output) ↔
      Attended site ⟨g, .wifi e, o, g.behindWifi e wifi output⟩ := by
  have same {t : WifiThread} (wifi_ : t.wifi = g.wifi.wifi) : NotStuck { g with wifi := t } := by
    intro runs connected quiet
    exact before runs connected (quiet.of_same rfl rfl rfl wifi_.symm rfl rfl)
  cases step with
  | indicate => exact iff_of_true (same (wifi_rtEventSend _ _)) trivial
  | store => exact absurd rfl (own _)
  | post => exact iff_of_true (same (wifi_rtEventSend _ _)) trivial
  | recv => exact iff_of_true (same (wifi_rtEventRecv _)) trivial
  | receive => exact iff_of_true (same rfl) trivial
  | transmit =>
      exact iff_of_true (notStuck_of_pending fun quiet => by cases quiet.answered) trivial
  | ignore => exact iff_of_true (same rfl) trivial
  | @read bytes reading some_ room => exact notStuck_read_iff some_ runs
  | respond =>
      cases posted : g.wifi.wifi.networkInfoData.response with
      | responseMax =>
          have nothing : postResponse g.wifi.wifi = (g.wifi.wifi, .nothing) := by
            simp [postResponse, responseMessage, posted]
          rw [nothing]
          exact iff_of_true (same rfl) (fun none_ => absurd rfl none_)
      | _ =>
          have message : ∃ w message, postResponse g.wifi.wifi = (w, .message message) := by
            simp [postResponse, responseMessage, posted]
          obtain ⟨w, message, post⟩ := message
          rw [post]
          exact iff_of_true (notStuck_of_pending (sends_not_quiet _ _))
            (fun none_ => absurd rfl none_)
  | finish =>
      exact iff_of_true (notStuck_of_pending fun quiet => by cases quiet.wifiTimeoutTimer) trivial
  | wifiTimeout => exact iff_of_true (notStuck_of_pending (sends_not_quiet _ _)) trivial
  | sendTimeout => exact iff_of_true (notStuck_of_pending (sends_not_quiet _ _)) trivial

/-! ## A message that is handled -/

theorem notStuck_handle_iff {site : Site} {g g' : Gateway} {message : MqData}
    (handling : Gateway.Handling site g message g') (runs : g.rebooted = false) :
    NotStuck g' ↔ AttendsTo site g message := by
  unfold AttendsTo
  cases handling with
  | issues acts plc =>
      rw [acts]
      exact iff_of_true (notStuck_of_pending fun quiet => by cases quiet.transmitted)
        (fun _ => trivial)
  | reboots acts plc =>
      rw [acts]
      exact iff_of_true (fun still => by cases still) (fun _ => trivial)
  | awaits acts =>
      rw [acts]
      exact iff_of_true (notStuck_of_pending fun quiet => by cases quiet.responseTimeoutTimer)
        (fun _ => trivial)
  | acknowledged acts =>
      rw [acts]
      exact iff_of_true (notStuck_of_pending fun quiet => by cases quiet.incData)
        (fun _ => trivial)
  | connected connects =>
      rw [connects]
      constructor
      · intro notStuck quiet
        exact (notStuck runs rfl (quiet.of_same rfl rfl rfl rfl rfl rfl)).2
      · intro first _ _ quiet
        exact ⟨rfl, first (quiet.of_same rfl rfl rfl rfl rfl rfl)⟩
  | ignoredOk ignores =>
      rw [ignores]
      constructor
      · intro notStuck quiet connected
        exact notStuck runs connected (quiet.of_same rfl rfl rfl rfl rfl rfl)
      · intro awaits _ connected quiet
        exact awaits (quiet.of_same rfl rfl rfl rfl rfl rfl) connected
  | ignoredFail ignores =>
      rw [ignores]
      constructor
      · intro notStuck quiet connected
        exact notStuck runs connected (quiet.of_same rfl rfl rfl rfl rfl rfl)
      · intro awaits _ connected quiet
        exact awaits (quiet.of_same rfl rfl rfl rfl rfl rfl) connected

/-! ## A turn of the PLC thread -/

/-- A TS always has something to pass to `SendData`. -/
theorem sentAt_of_ts (devInfo : Block UInt8 4) {k : UInt16} (low : 1 ≤ k.toNat) (high : k.toNat ≤ 11)
    (pData : List UInt8) : ∃ bytes, Plc.sentAt devInfo .ts k pData = some bytes := by
  have sent := Plc.sentAt_ts devInfo pData low high
  rw [UInt16.ofNat_toNat] at sent
  exact ⟨_, sent⟩

theorem notStuck_plc_iff {site : Site} {g : Gateway} {o : Unit} {rx : Bool}
    {reads : List (List UInt8)} {t : Plc.PlcThread} {made : Option Plc.Packetised}
    (turn : Plc.plccommRx g.plc rx g.incData reads = some (t, made)) (serves : ServesTs g)
    (before : NotStuck g) (runs : g.rebooted = false) :
    NotStuck (g.behindPlc t made) ↔ Attended site ⟨g, .plc rx reads, o, g.behindPlc t made⟩ := by
  rcases Plc.plccommRx_due turn with ⟨notDue, rfl, kept⟩ | ⟨due, s, kept, rfl, rfl⟩
  · constructor
    · intro notStuck _ connected quiet
      exact (notStuck runs (kept.tcpOn.trans connected) (quiet.of_same rfl rfl rfl rfl rfl rfl)).1
    · intro attended _ connected_ quiet
      have connected : g.plc.info.tcpOn = enable := kept.tcpOn.symm.trans connected_
      cases inc : g.incData with
      | false =>
          obtain ⟨status, first⟩ := before runs connected (quiet.of_same rfl rfl rfl rfl rfl inc)
          exact ⟨status, kept.sensorCodeCount.trans first⟩
      | true =>
          refine ⟨attended inc connected (quiet.of_same rfl rfl rfl rfl rfl rfl),
            kept.sensorCodeCount.trans ?_⟩
          have first : ¬ 1 < g.plc.sensorCodeCount :=
            fun other => notDue ⟨connected, .inr ⟨inc, other⟩⟩
          rw [UInt16.lt_iff_toNat_lt, UInt16.toNat_one] at first
          have low := serves.low
          exact UInt16.toNat_inj.mp (by rw [UInt16.toNat_one]; omega)
  · obtain ⟨bytes, sent⟩ : ∃ bytes, (Plc.packetise s).2.sent = some bytes := by
      rw [Plc.packetise_output, kept.devType, serves.device, kept.sensorCodeCount]
      exact sentAt_of_ts _ serves.low serves.high _
    have some_ : 0 < bytes.length := by
      rw [Plc.packetise_output] at sent
      exact Plc.length_sentAt_pos sent
    have passed : g.behindPlc (Plc.packetise s).1 (some (Plc.packetise s).2) =
        ({ g with plc := (Plc.packetise s).1, incData := false } : Gateway).sendData bytes := by
      simp only [Gateway.behindPlc, Option.bind_some, sent]
    rw [passed]
    by_cases standsBy : g.manager.networkStatus = some .standbySend
    · have queued : ({ g with plc := (Plc.packetise s).1, incData := false } : Gateway).sendData
          bytes = Gateway.networkMangerSendMessage
            { g with
              plc := (Plc.packetise s).1
              incData := false
              manager := { g.manager with networkStatus := some .setSendDataLength } }
            ⟨.tcpSendData, bytes.length, .packets bytes⟩ := by
        rw [Gateway.sendData, if_pos ⟨some_, standsBy⟩]
      rw [queued]
      exact iff_of_true (notStuck_of_pending (sends_not_quiet _ _)) (fun _ _ _ => standsBy)
    · have dropped : ({ g with plc := (Plc.packetise s).1, incData := false } : Gateway).sendData
          bytes = { g with plc := (Plc.packetise s).1, incData := false } := by
        rw [Gateway.sendData, if_neg fun ready => standsBy ready.2]
      have connected : g.getTcpStatus = enable := due.1
      rw [dropped]
      constructor
      · intro notStuck _ _ quiet
        have tcpOn : (Plc.packetise s).1.info.tcpOn = enable :=
          (Plc.packetise_keeps s).1.2.2.trans (kept.tcpOn.trans connected)
        exact (notStuck runs tcpOn (quiet.of_same rfl rfl rfl rfl rfl rfl)).1
      · intro attended _ _ quiet
        refine absurd ?_ standsBy
        cases inc : g.incData with
        | false => exact (before runs connected (quiet.of_same rfl rfl rfl rfl rfl inc)).1
        | true => exact attended inc connected (quiet.of_same rfl rfl rfl rfl rfl rfl)

/-! ## Whole runs -/

/-- **One step.** A step keeps a gateway from being stuck exactly if it is attended. -/
theorem notStuck_iff {site : Site} {τ : GatewayTransition} (takes : (gateway site).Takes τ)
    (serves : ServesTs τ.source) (before : NotStuck τ.source) :
    NotStuck τ.target ↔ Attended site τ := by
  obtain ⟨g, e, o, g'⟩ := τ
  obtain ⟨runs, step⟩ : g.rebooted = false ∧ GatewayStep site g e g' := gateway_cases takes
  cases step with
  | wifi step own => exact notStuck_wifi_iff step own before runs
  | plc turn => exact notStuck_plc_iff turn serves before runs
  | @handle message queue popped =>
      have handled := notStuck_handle_iff
        (Gateway.handle_handling site { g with networkManagerMq := queue } message) runs
      constructor
      · intro notStuck message' queue' popped'
        cases popped.symm.trans popped'
        exact handled.mp notStuck
      · intro attended
        exact handled.mpr (attended message queue popped)
  | responseTimeout => exact iff_of_true (fun still => by cases still) trivial

/-- The turn goes round among the eleven sensors. -/
theorem nextSensorCode_range {k : UInt16} (low : 1 ≤ k.toNat) (high : k.toNat ≤ 11) :
    1 ≤ (Plc.nextSensorCode .ts k).toNat ∧ (Plc.nextSensorCode .ts k).toNat ≤ 11 := by
  have next : (k + 1).toNat = k.toNat + 1 := by
    rw [UInt16.toNat_add, UInt16.toNat_one]
    omega
  unfold Plc.nextSensorCode
  split
  · exact ⟨by decide, by decide⟩
  · rename_i within
    rw [if_neg (by simp)]
    have within : ¬ (11 : UInt16) < k + 1 := fun past => within ⟨rfl, past⟩
    rw [UInt16.lt_iff_toNat_lt, next] at within
    rw [next]
    have eleven : (11 : UInt16).toNat = 11 := rfl
    omega

theorem servesTs_step {site : Site} {τ : GatewayTransition} (takes : (gateway site).Takes τ)
    (serves : ServesTs τ.source) : ServesTs τ.target := by
  obtain ⟨g, e, o, g'⟩ := τ
  have step : GatewayStep site g e g' := (gateway_cases takes).2
  have same {plc : Plc.PlcThread} (device : plc.info.devType = g.plc.info.devType)
      (turn : plc.sensorCodeCount = g.plc.sensorCodeCount) {h : Gateway} (plc_ : h.plc = plc) :
      ServesTs h := by
    refine ⟨?_, ?_, ?_⟩
    · rw [plc_, device]
      exact serves.device
    · rw [plc_, turn]
      exact serves.low
    · rw [plc_, turn]
      exact serves.high
  cases step with
  | wifi => exact same rfl rfl (Gateway.plc_behindWifi _ _ _ _)
  | handle =>
      obtain ⟨tcpOn, plc⟩ := (Gateway.handle_handling site _ _).plc_eq
      exact same (by rfl) (by rfl) plc
  | responseTimeout => exact same rfl rfl rfl
  | plc turn =>
      rcases Plc.plccommRx_due turn with ⟨-, rfl, kept⟩ | ⟨-, s, kept, rfl, rfl⟩
      · exact same kept.devType kept.sensorCodeCount rfl
      · have device : s.info.devType = .ts := kept.devType.trans serves.device
        have range := nextSensorCode_range serves.low serves.high
        have turn : (Plc.packetise s).1.sensorCodeCount =
            Plc.nextSensorCode .ts g.plc.sensorCodeCount := by
          rw [Plc.sensorCodeCount_packetise, device, kept.sensorCodeCount]
        refine ⟨?_, ?_, ?_⟩
        · rw [Gateway.plc_behindPlc]
          exact (Plc.packetise_keeps s).1.1.trans device
        · rw [Gateway.plc_behindPlc, turn]
          exact range.1
        · rw [Gateway.plc_behindPlc, turn]
          exact range.2

/-- Before the first connection. -/
structure Starting (g : Gateway) : Prop where
  device : g.plc.info.devType = .ts
  first : g.plc.sensorCodeCount = 1
  off : g.plc.info.tcpOn = disable

/-- **A gateway is never stuck exactly while every step is attended**, whatever the module answers
and whatever frames come. -/
theorem never_stuck_iff {site : Site} {first last : Gateway} {taken : List GatewayTransition}
    (run : (gateway site).Run first taken last) (starting : Starting first) :
    Machine.Throughout (fun _ g => NotStuck g) taken last ↔ ∀ τ ∈ taken, Attended site τ := by
  have notStuck : NotStuck first := by
    intro _ connected
    exact absurd (starting.off.symm.trans connected) (by decide)
  have serves : ServesTs first := by
    refine ⟨starting.device, ?_, ?_⟩ <;> rw [starting.first] <;> decide
  refine run.throughout_iff _ ServesTs (Attended site) ⟨notStuck, serves⟩ ?_ ?_
  · intro past τ takes attended before serves
    exact ⟨(notStuck_iff takes serves before).mpr attended, servesTs_step takes serves⟩
  · intro past τ takes notAttended before serves after
    exact notAttended ((notStuck_iff takes serves before).mp after)

/-- The first connection, a frame, and the first of its packets. -/
theorem never_stuck_iff_first : ∃ taken last,
    (gateway someSite).Run (startGateway someSite) taken last ∧
      (Machine.Throughout (fun _ g => NotStuck g) taken last ↔ ∀ τ ∈ taken, Attended someSite τ) ∧
      last.plc.sensorCodeCount = 3 := by
  obtain ⟨taken, last, run, passed⟩ := (gateway someSite).exists_run_of_passes
    (startGateway someSite) (connecting ++ [frameArrives] ++ packetSent ++ [.plc false []])
    (fun _ last => last.plc.sensorCodeCount = 3) (by decide +kernel)
  exact ⟨taken, last, run, never_stuck_iff run ⟨rfl, rfl, rfl⟩, of_decide_eq_true passed⟩

/-- **A gateway is stuck.** The module answers the command for the first packet with `ERROR`; the
connection is closed and opened again, and the `OK` for it is ignored. -/
theorem gateway_is_stuck : ∃ taken last,
    (gateway someSite).Run (startGateway someSite) taken last ∧ last.plc.info.devType = .ts ∧
      last.rebooted = false ∧ last.getTcpStatus = enable ∧ Quiet last ∧ ¬ AwaitsFrame last := by
  obtain ⟨taken, last, run, passed⟩ := (gateway someSite).exists_run_of_passes
    (startGateway someSite)
    (connecting ++ [frameArrives, .handle] ++ exchanged [lineOf "ERROR"] ++
      exchanged [lineOf "OK"] ++ exchanged [lineOf "OK"])
    (fun _ last => last.plc.info.devType = .ts ∧ last.rebooted = false ∧
      last.getTcpStatus = enable ∧ Quiet last ∧ ¬ AwaitsFrame last) (by decide +kernel)
  exact ⟨taken, last, run, of_decide_eq_true passed⟩

end WhaleShark

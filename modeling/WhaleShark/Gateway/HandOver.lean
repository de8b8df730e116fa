import WhaleShark.Gateway.NetworkManager

/-!
# From the PLC thread to the network manager

When a packet is due, the PLC thread passes it to `SendData` and goes on to the next sensor, whether
`SendData` queues the packet or drops it. Here is when it queues it (`items_sendData`), and
so when a turn that goes on to the next sensor has handed the packet over (`handsOver_iff`).

A frame that arrives while the last packet of the frame before is on its way finds the first
sensor's turn and a manager that does not stand by: the reading is dropped (`reading_is_skipped`).
-/

set_option autoImplicit false

namespace WhaleShark

open Foundations Network

/-! ## What a turn is to hand over -/

namespace Plc

/-- The reads of a turn complete a valid frame. -/
def recognised (t : PlcThread) (reads : List (List UInt8)) : Bool :=
  match readAll (makeRoom t) reads with
  | none => false
  | some after => after.info.valid

/-- A packet is due: at the first sensor's turn a frame is completed, or there is another sensor of
the frame at hand and `SMSG_INC_DATA` has come. -/
def Due (t : PlcThread) (rx inc : Bool) (reads : List (List UInt8)) : Prop :=
  t.info.tcpOn = enable ∧
    ((rx = true ∧ t.sensorCodeCount = 1 ∧ recognised t reads = true) ∨
      (inc = true ∧ 1 < t.sensorCodeCount))

instance (t : PlcThread) (rx inc : Bool) (reads : List (List UInt8)) :
    Decidable (Due t rx inc reads) := inferInstanceAs (Decidable (_ ∧ _))

/-- A turn in which no packet is due keeps the sensor, and one in which a packet is due packetises. -/
theorem plccommRx_due {t t' : PlcThread} {rx inc : Bool} {reads : List (List UInt8)}
    {made : Option Packetised} (turn : plccommRx t rx inc reads = some (t', made)) :
    (¬ Due t rx inc reads ∧ made = none ∧ KeepsDevice t t') ∨
      (Due t rx inc reads ∧ ∃ s, KeepsDevice t s ∧ t' = (packetise s).1 ∧
        made = some (packetise s).2) := by
  have recognised_ {after : PlcThread} (read : readAll (makeRoom t) reads = some after) :
      recognised t reads = after.info.valid := by
    rw [recognised, read]
  cases plccommRx_cases turn with
  | idle noFrame noSensor =>
      refine .inl ⟨?_, rfl, ⟨rfl, rfl, rfl, rfl⟩⟩
      rintro ⟨connected, ⟨rx, first, -⟩ | ⟨inc, other⟩⟩
      · exact noFrame ⟨connected, rx, first⟩
      · exact noSensor ⟨connected, inc, other⟩
  | searching connected first read quiet =>
      refine .inl ⟨?_, rfl, reads_keep read⟩
      rintro ⟨-, ⟨-, -, complete⟩ | ⟨-, other⟩⟩
      · rw [recognised_ read, quiet] at complete
        cases complete
      · rw [first] at other
        exact absurd other (by decide)
  | @found inc reads after connected first read valid =>
      obtain ⟨turn, devType, devInfo, tcpOn⟩ := reads_keep read
      exact .inr ⟨⟨connected, .inl ⟨rfl, first, (recognised_ read).trans valid⟩⟩,
        { after with info := { after.info with valid := disable } },
        ⟨turn, devType, devInfo, tcpOn⟩, rfl, rfl⟩
  | next connected other =>
      exact .inr ⟨⟨connected, .inr ⟨rfl, other⟩⟩, t, ⟨rfl, rfl, rfl, rfl⟩, rfl, rfl⟩

/-- The length of the payload of a sensor. -/
def payloadLen (devType : DevType) (sensorCodeCount : UInt16) : ℕ :=
  (payload (.fill 4 0) devType sensorCodeCount []).length

theorem length_payload (devInfo : Block UInt8 4) (devType : DevType) (sensorCodeCount : UInt16)
    (pData : List UInt8) :
    (payload devInfo devType sensorCodeCount pData).length =
      payloadLen devType sensorCodeCount := by
  simp only [payloadLen, payload, List.length_append, length_packetsOf]
  split <;> simp only [length_packetsOf]

/-- The packet made for the sensor whose turn it is, whole. -/
def packetOf (t : PlcThread) (made : Packetised) : List UInt8 :=
  payload t.info.devInfo t.info.devType made.sensorCodeCount made.pData

theorem nextSensorCode_ne (devType : DevType) (k : UInt16) : nextSensorCode devType k ≠ k := by
  have more : k + 1 ≠ k := by
    intro same
    have bound := k.toNat_lt
    have count := congrArg UInt16.toNat same
    rw [UInt16.toNat_add, UInt16.toNat_one] at count
    omega
  unfold nextSensorCode
  split
  · rename_i wraps
    rintro rfl
    exact absurd wraps.2 (by decide)
  · split
    · rename_i wraps
      rintro rfl
      exact absurd wraps.2 (by decide)
    · exact more

/-- What is passed to `SendData` is the whole packet exactly if its length fits into a byte. -/
theorem sentAt_whole_iff (devInfo : Block UInt8 4) (devType : DevType) (sensorCodeCount : UInt16)
    (pData : List UInt8) :
    sentAt devInfo devType sensorCodeCount pData =
        some (payload devInfo devType sensorCodeCount pData) ↔
      0 < payloadLen devType sensorCodeCount ∧ payloadLen devType sensorCodeCount < 256 := by
  have length := length_payload devInfo devType sensorCodeCount pData
  have cut : (payloadLen devType sensorCodeCount).toUInt8.toNat =
      payloadLen devType sensorCodeCount % 256 := rfl
  have some_ : 0 < (payloadLen devType sensorCodeCount).toUInt8 ↔
      0 < payloadLen devType sensorCodeCount % 256 := by
    rw [← cut]
    exact UInt8.lt_iff_toNat_lt
  simp only [sentAt, length]
  split
  · rename_i sent
    have some_ := some_.mp sent
    rw [Option.some.injEq, cut]
    constructor
    · intro whole
      have lengths := congrArg List.length whole
      rw [List.length_take, length] at lengths
      omega
    · intro fits
      exact List.take_of_length_le (by rw [length]; omega)
  · rename_i none_
    have none_ := mt some_.mpr none_
    simp only [reduceCtorEq, false_iff]
    omega

theorem length_sentAt_pos {devInfo : Block UInt8 4} {devType : DevType} {sensorCodeCount : UInt16}
    {pData bytes : List UInt8} (sent : sentAt devInfo devType sensorCodeCount pData = some bytes) :
    0 < bytes.length := by
  simp only [sentAt] at sent
  split at sent
  · rename_i some_
    cases sent
    have some_ := UInt8.lt_iff_toNat_lt.mp some_
    have cut : (payload devInfo devType sensorCodeCount pData).length.toUInt8.toNat =
      (payload devInfo devType sensorCodeCount pData).length % 256 := rfl
    rw [UInt8.toNat_zero] at some_
    rw [List.length_take]
    omega
  · cases sent

end Plc

/-- What the PLC thread makes in this step. -/
def madeIn (τ : GatewayTransition) : Option Plc.Packetised :=
  match τ.event with
  | .plc rx reads => (Plc.plccommRx τ.source.plc rx τ.source.incData reads).bind (·.2)
  | _ => none

/-- The message that hands a packet over. -/
def packetMessage (packet : List UInt8) : MqData := ⟨.tcpSendData, packet.length, .packets packet⟩

theorem packetMessage_inj {p q : List UInt8} : packetMessage p = packetMessage q ↔ p = q := by
  constructor
  · intro same
    injection same with _ _ data
    injection data
  · exact congrArg packetMessage

/-- A step that goes on to the next sensor queues the packet made for this one. -/
def HandsOver (τ : GatewayTransition) : Prop :=
  τ.target.plc.sensorCodeCount ≠ τ.source.plc.sensorCodeCount →
    ∃ made, madeIn τ = some made ∧ made.sensorCodeCount = τ.source.plc.sensorCodeCount ∧
      τ.target.networkManagerMq.items =
        τ.source.networkManagerMq.items ++ [packetMessage (Plc.packetOf τ.source.plc made)]

/-- `SendData` will queue the packet of this sensor, and the whole of it. -/
def Gateway.ReadyFor (g : Gateway) (sensorCodeCount : UInt16) : Prop :=
  g.manager.networkStatus = some .standbySend ∧
    g.networkManagerMq.items.length < networkmanagerMqSize ∧
    0 < Plc.payloadLen g.plc.info.devType sensorCodeCount ∧
    Plc.payloadLen g.plc.info.devType sensorCodeCount < 256

/-- When a packet is due, `SendData` will queue it. -/
def InTime (τ : GatewayTransition) : Prop :=
  match τ.event with
  | .plc rx reads =>
      Plc.Due τ.source.plc rx τ.source.incData reads →
        τ.source.ReadyFor τ.source.plc.sensorCodeCount
  | _ => True

/-! ## One step -/

namespace Gateway

theorem items_networkMangerSendMessage (g : Gateway) (message : MqData) :
    (g.networkMangerSendMessage message).networkManagerMq.items =
      if g.networkManagerMq.items.length < networkmanagerMqSize then
        g.networkManagerMq.items ++ [message]
      else g.networkManagerMq.items := by
  unfold networkMangerSendMessage
  cases pushed : g.networkManagerMq.push message with
  | none =>
      have full := (Fifo.push_eq_none_iff _ _).mp pushed
      rw [if_neg (by omega)]
  | some queue =>
      have room : g.networkManagerMq.items.length ≠ networkmanagerMqSize := by
        intro full
        rw [(Fifo.push_eq_none_iff _ _).mpr full] at pushed
        cases pushed
      have bound := g.networkManagerMq.bound
      rw [if_pos (by omega)]
      exact Fifo.items_of_push pushed

/-- **`SendData` queues a packet exactly if the manager stands by and the queue has room.** -/
theorem items_sendData (g : Gateway) (pData : List UInt8) :
    (g.sendData pData).networkManagerMq.items =
      if 0 < pData.length ∧ g.manager.networkStatus = some .standbySend ∧
          g.networkManagerMq.items.length < networkmanagerMqSize then
        g.networkManagerMq.items ++ [packetMessage pData]
      else g.networkManagerMq.items := by
  unfold sendData
  split
  · rename_i ready
    rw [items_networkMangerSendMessage]
    simp only [ready.1, ready.2, true_and]
    rfl
  · rename_i notReady
    rw [if_neg fun ready => notReady ⟨ready.1, ready.2.1⟩]

theorem plc_networkMangerSendMessage (g : Gateway) (message : MqData) :
    (g.networkMangerSendMessage message).plc = g.plc := by
  unfold networkMangerSendMessage
  split <;> rfl

theorem plc_sendData (g : Gateway) (pData : List UInt8) : (g.sendData pData).plc = g.plc := by
  unfold sendData
  split
  · rw [plc_networkMangerSendMessage]
  · rfl

theorem plc_behindPlc (g : Gateway) (plc : Plc.PlcThread) (made : Option Plc.Packetised) :
    (g.behindPlc plc made).plc = plc := by
  unfold behindPlc
  split
  · rfl
  · rw [plc_sendData]

theorem plc_behindWifi (g : Gateway) (e : WifiEvent) (wifi : WifiThread) (output : WifiOutput) :
    (g.behindWifi e wifi output).plc = g.plc := by
  cases output with
  | message message => exact plc_networkMangerSendMessage _ _
  | _ => rfl

/-- The manager changes nothing of the PLC thread but the TCP flag. -/
theorem Handling.plc_eq {site : Site} {g g' : Gateway} {message : MqData}
    (handling : Handling site g message g') : ∃ tcpOn, g'.plc = Plc.setTcpStatus g.plc tcpOn := by
  cases handling with
  | issues _ plc => exact ⟨_, plc⟩
  | reboots _ plc => exact ⟨g.plc.info.tcpOn, plc⟩
  | awaits => exact ⟨g.plc.info.tcpOn, rfl⟩
  | acknowledged => exact ⟨enable, rfl⟩
  | connected => exact ⟨enable, rfl⟩
  | ignoredOk => exact ⟨g.plc.info.tcpOn, rfl⟩
  | ignoredFail => exact ⟨g.plc.info.tcpOn, rfl⟩

/-- A packet that is made is handed over exactly if the gateway is ready for it. -/
theorem items_behindPlc_iff {g : Gateway} {t : Plc.PlcThread}
    (sameInfo : t.info.devInfo = g.plc.info.devInfo)
    (sameType : t.info.devType = g.plc.info.devType) :
    (g.behindPlc (Plc.packetise t).1 (some (Plc.packetise t).2)).networkManagerMq.items =
        g.networkManagerMq.items ++ [packetMessage (Plc.packetOf g.plc (Plc.packetise t).2)] ↔
      g.ReadyFor t.sensorCodeCount := by
  have whole := Plc.sentAt_whole_iff t.info.devInfo t.info.devType t.sensorCodeCount
    t.info.rxBuf.cells
  have packet : Plc.packetOf g.plc (Plc.packetise t).2 =
      Plc.payload t.info.devInfo t.info.devType t.sensorCodeCount t.info.rxBuf.cells := by
    rw [Plc.packetOf, Plc.packetise_output, sameInfo, sameType]
  have sent : (Plc.packetise t).2.sent = Plc.sentAt t.info.devInfo t.info.devType
      t.sensorCodeCount t.info.rxBuf.cells := by rw [Plc.packetise_output]
  rw [packet, ReadyFor, ← sameType, ← whole]
  simp only [behindPlc, Option.bind_some, sent]
  cases passed : Plc.sentAt t.info.devInfo t.info.devType t.sensorCodeCount t.info.rxBuf.cells with
  | none => simp
  | some bytes =>
      have some_ := Plc.length_sentAt_pos passed
      simp only [items_sendData, Option.some.injEq]
      split
      · rename_i ready
        rw [List.append_cancel_left_eq, List.singleton_inj, packetMessage_inj]
        exact ⟨fun same => ⟨ready.2.1, ready.2.2, same⟩, fun same => same.2.2⟩
      · rename_i notReady
        refine iff_of_false (by simp) ?_
        rintro ⟨standsBy, room, -⟩
        exact notReady ⟨some_, standsBy, room⟩

end Gateway

/-- A packet that was made and not handed over is a step that goes on without. -/
theorem handsOver_packetise {g : Gateway} {e : GatewayEvent} {o : Unit} {t : Plc.PlcThread}
    (sameInfo : t.info.devInfo = g.plc.info.devInfo)
    (sameType : t.info.devType = g.plc.info.devType)
    (turn : t.sensorCodeCount = g.plc.sensorCodeCount)
    (made : madeIn ⟨g, e, o, g.behindPlc (Plc.packetise t).1 (some (Plc.packetise t).2)⟩ =
      some (Plc.packetise t).2) :
    HandsOver ⟨g, e, o, g.behindPlc (Plc.packetise t).1 (some (Plc.packetise t).2)⟩ ↔
      g.ReadyFor g.plc.sensorCodeCount := by
  rw [← turn, ← Gateway.items_behindPlc_iff sameInfo sameType, HandsOver]
  have moved : (g.behindPlc (Plc.packetise t).1 (some (Plc.packetise t).2)).plc.sensorCodeCount ≠
      g.plc.sensorCodeCount := by
    rw [Gateway.plc_behindPlc, Plc.sensorCodeCount_packetise, ← turn]
    exact Plc.nextSensorCode_ne _ _
  constructor
  · intro handed
    obtain ⟨made', same, -, items⟩ := handed moved
    rw [made] at same
    cases same
    exact items
  · exact fun items _ => ⟨_, made, turn, items⟩

/-- **A turn hands its packet over exactly if the gateway is ready for it.** -/
theorem handsOver_iff {site : Site} {τ : GatewayTransition} (takes : (gateway site).Takes τ) :
    HandsOver τ ↔ InTime τ := by
  obtain ⟨g, e, o, g'⟩ := τ
  have step : GatewayStep site g e g' := (gateway_cases takes).2
  cases step with
  | wifi => exact iff_of_true (fun moved => absurd (by rw [Gateway.plc_behindWifi]) moved) trivial
  | handle =>
      obtain ⟨tcpOn, plc⟩ := (Gateway.handle_handling site _ _).plc_eq
      exact iff_of_true (fun moved => absurd (by rw [plc]; rfl) moved) trivial
  | responseTimeout => exact iff_of_true (fun moved => absurd rfl moved) trivial
  | @plc rx reads t made turn =>
      rcases Plc.plccommRx_due turn with ⟨notDue, rfl, kept⟩ | ⟨due, s, kept, rfl, rfl⟩
      · exact iff_of_true (fun moved => absurd kept.sensorCodeCount moved)
          (fun due => absurd due notDue)
      · rw [handsOver_packetise kept.devInfo kept.devType kept.sensorCodeCount
          (by simp [madeIn, turn])]
        exact ⟨fun ready _ => ready, fun inTime => inTime due⟩

/-- **No reading is skipped in a run exactly if the gateway is ready whenever a packet is due.** -/
theorem readings_are_handed_over_iff {site : Site} {first last : Gateway}
    {taken : List GatewayTransition} (run : (gateway site).Run first taken last) :
    (∀ τ ∈ taken, HandsOver τ) ↔ ∀ τ ∈ taken, InTime τ := by
  constructor
  · intro handed τ member
    exact (handsOver_iff (run.takes τ member)).mp (handed τ member)
  · intro inTime τ member
    exact (handsOver_iff (run.takes τ member)).mpr (inTime τ member)

/-- The first packet of a frame that arrives when the connection is there. -/
theorem readings_are_handed_over_iff_first : ∃ taken last,
    (gateway someSite).Run (startGateway someSite) taken last ∧
      ((∀ τ ∈ taken, HandsOver τ) ↔ ∀ τ ∈ taken, InTime τ) ∧ last.plc.sensorCodeCount = 2 := by
  obtain ⟨taken, last, run, passed⟩ := (gateway someSite).exists_run_of_passes
    (startGateway someSite) (connecting ++ [frameArrives])
    (fun _ last => last.plc.sensorCodeCount = 2) (by decide +kernel)
  exact ⟨taken, last, run, readings_are_handed_over_iff run, of_decide_eq_true passed⟩

/-- The step goes on to the next sensor and queues nothing. -/
def Skips (τ : GatewayTransition) : Prop :=
  τ.target.plc.sensorCodeCount ≠ τ.source.plc.sensorCodeCount ∧
    τ.target.networkManagerMq.items = τ.source.networkManagerMq.items

instance (τ : GatewayTransition) : Decidable (Skips τ) := inferInstanceAs (Decidable (_ ∧ _))

theorem not_handsOver_of_skips {τ : GatewayTransition} (skips : Skips τ) : ¬ HandsOver τ := by
  intro handed
  obtain ⟨made, -, -, items⟩ := handed skips.1
  rw [skips.2] at items
  simp at items

/-- **A reading is skipped.** Ten packets of a frame are acknowledged. The eleventh is queued, the
turn of the first sensor comes again, and the next frame arrives before the eleventh is sent. -/
theorem reading_is_skipped : ∃ taken last,
    (gateway someSite).Run (startGateway someSite) taken last ∧
      ∃ τ ∈ taken, τ.source.plc.info.tcpOn = enable ∧ ¬ HandsOver τ := by
  obtain ⟨taken, last, run, passed⟩ := (gateway someSite).exists_run_of_passes
    (startGateway someSite)
    (connecting ++ [frameArrives] ++
      (List.replicate 10 (packetSent ++ [.plc false []])).flatten ++ [frameArrives])
    (fun taken _ => taken.any fun τ => τ.source.plc.info.tcpOn && decide (Skips τ))
    (by decide +kernel)
  obtain ⟨τ, member, here⟩ := List.any_eq_true.mp passed
  rw [Bool.and_eq_true, decide_eq_true_iff] at here
  exact ⟨taken, last, run, τ, member, here.1, not_handsOver_of_skips here.2⟩

end WhaleShark

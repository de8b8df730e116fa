import WhaleShark.Foundations.Simulations
import WhaleShark.Gateway.MessageQueue
import WhaleShark.Gateway.Reactions

/-!
# The gateway over its queue of pointers

`NetworkMangerSendMessage` queues a pointer, and the manager copies what it points to when it takes
it from the queue. `pointerGateway` puts the threads of the gateway together over such a queue, with
the two cells that are pointed to: `wifiInfo.mqData`, and the local variable of `SendData`, whose
memory may be used for something else when `SendData` has returned. Posting a message and `SendData`
are one step each, as they are in `gateway`.

A step leaves the messages intact when it writes nothing new into a cell that a queued pointer leads
to (`Intact`). While all steps do, what the manager handles is what was sent: the run, as it reads
with the messages in place of the pointers, is a run of `gateway` (`gateway_run_of_intact`). Each
run is one of `messagePath`, the queue of pointers alone, in which the messages are intact
throughout exactly if all steps leave them so (`messages_are_intact_in_gateway`).
-/

set_option autoImplicit false

namespace WhaleShark

open Foundations Network

/-- The threads with their variables, the variable `data` of `SendData`, and the queue. The queue of
`gateway` is not used. -/
structure PointerGateway where
  gateway : Gateway
  frame : MqData
  queue : Fifo Pointer networkmanagerMqSize
  deriving DecidableEq

inductive PointerEvent where
  /-- a step of the threads and timers -/
  | gateway (e : GatewayEvent)
  /-- the memory of the variable of `SendData`, which has returned, is used for something else -/
  | reuse (contents : MqData)

namespace PointerGateway

/-! ## What the threads call -/

/-- What a pointer points to. -/
def deref (s : PointerGateway) : Pointer → MqData
  | .wifiMqData => s.gateway.wifi.wifi.mqData
  | .sendDataFrame => s.frame

/-- `NetworkMangerSendMessage` -/
def networkMangerSendMessage (s : PointerGateway) (p : Pointer) : PointerGateway :=
  match s.queue.push p with
  | none => s
  | some queue => { s with queue := queue }

/-- `SendData` -/
def sendData (s : PointerGateway) (pData : List UInt8) : PointerGateway :=
  if 0 < pData.length ∧ s.gateway.manager.networkStatus = some .standbySend then
    networkMangerSendMessage
      { s with
        gateway := s.gateway.setNetworkStatus .setSendDataLength
        frame := ⟨.tcpSendData, pData.length, .packets pData⟩ }
      .sendDataFrame
  else s

/-- Behind a step of the Wi-Fi side. A message that is posted stands in `wifiInfo.mqData`. -/
def behindWifi (s : PointerGateway) (e : WifiEvent) (wifi : WifiThread) :
    WifiOutput → PointerGateway
  | .message _ =>
      networkMangerSendMessage
        { s with gateway := { s.gateway with
          wifi := wifi
          unanswered :=
            if Gateway.answers s.gateway.wifi.wifi e then s.gateway.unanswered - 1
            else s.gateway.unanswered } }
        .wifiMqData
  | output => { s with gateway := s.gateway.behindWifi e wifi output }

/-- Behind a turn of the PLC thread. -/
def behindPlc (s : PointerGateway) (plc : Plc.PlcThread) (made : Option Plc.Packetised) :
    PointerGateway :=
  let s := { s with gateway := { s.gateway with plc := plc, incData := false } }
  match made.bind (·.sent) with
  | none => s
  | some bytes => s.sendData bytes

/-- The manager handles what a pointer that it has taken points to. -/
def handle (site : Site) (s : PointerGateway) (p : Pointer)
    (queue : Fifo Pointer networkmanagerMqSize) : PointerGateway :=
  { s with gateway := Gateway.handle site s.gateway (s.deref p), queue := queue }

end PointerGateway

/-- Nothing runs after a reboot. -/
def pointerGateway (site : Site) : Machine PointerGateway PointerEvent Unit where
  step s e :=
    if s.gateway.rebooted then none
    else
      match e with
      | .reuse contents => some ({ s with frame := contents }, ())
      | .gateway (.wifi (.store _)) => none
      | .gateway (.wifi e) =>
          match (wifiThread site.toSurroundings).step s.gateway.wifi e with
          | none => none
          | some (wifi, output) => some (s.behindWifi e wifi output, ())
      | .gateway (.plc rx reads) =>
          match Plc.plccommRx s.gateway.plc rx s.gateway.incData reads with
          | none => none
          | some (plc, made) => some (s.behindPlc plc made, ())
      | .gateway .handle =>
          match s.gateway.wifi.calling, s.queue.pop with
          | false, some (p, queue) => some (s.handle site p queue, ())
          | _, _ => none
      | .gateway .responseTimeout =>
          if s.gateway.manager.responseTimeoutTimer then
            some ({ s with
              gateway := (s.gateway.setResponseTimeoutTimer false).deviceReboot }, ())
          else none

abbrev PointerTransition := Transition PointerGateway PointerEvent Unit

/-- The steps. -/
inductive PointerStep (site : Site) (s : PointerGateway) :
    PointerEvent → PointerGateway → Prop where
  | wifi {e : WifiEvent} {wifi : WifiThread} {output : WifiOutput}
      (stepped : (wifiThread site.toSurroundings).step s.gateway.wifi e = some (wifi, output))
      (own : ∀ call, e ≠ .store call) :
      PointerStep site s (.gateway (.wifi e)) (s.behindWifi e wifi output)
  | plc {rx : Bool} {reads : List (List UInt8)} {plc : Plc.PlcThread}
      {made : Option Plc.Packetised}
      (turn : Plc.plccommRx s.gateway.plc rx s.gateway.incData reads = some (plc, made)) :
      PointerStep site s (.gateway (.plc rx reads)) (s.behindPlc plc made)
  | handle {p : Pointer} {queue : Fifo Pointer networkmanagerMqSize}
      (free : s.gateway.wifi.calling = false) (popped : s.queue.pop = some (p, queue)) :
      PointerStep site s (.gateway .handle) (s.handle site p queue)
  | responseTimeout (runs : s.gateway.manager.responseTimeoutTimer = true) :
      PointerStep site s (.gateway .responseTimeout)
        { s with gateway := (s.gateway.setResponseTimeoutTimer false).deviceReboot }
  | reuse {contents : MqData} : PointerStep site s (.reuse contents) { s with frame := contents }

/-- Every step of the machine is one of these. -/
theorem pointerGateway_cases {site : Site} {s s' : PointerGateway} {e : PointerEvent} {o : Unit}
    (step : (pointerGateway site).step s e = some (s', o)) :
    s.gateway.rebooted = false ∧ PointerStep site s e s' := by
  simp only [pointerGateway] at step
  split at step
  · cases step
  · rename_i runs
    refine ⟨Bool.eq_false_iff.mpr runs, ?_⟩
    split at step
    · cases step
      exact .reuse
    · cases step
    · rename_i e own
      split at step
      · cases step
      · rename_i stepped
        cases step
        exact .wifi stepped own
    · split at step
      · cases step
      · rename_i turn
        cases step
        exact .plc turn
    · split at step
      · rename_i free popped
        cases step
        exact .handle free popped
      · cases step
    · split at step
      · rename_i runs
        cases step
        exact .responseTimeout runs
      · cases step

/-! ## As the messages read -/

namespace PointerGateway

/-- The gateway with the messages in its queue, as the cells have them now. -/
def asRead (s : PointerGateway) : Gateway :=
  { s.gateway with
    networkManagerMq := ⟨s.queue.items.map s.deref, by rw [List.length_map]; exact s.queue.bound⟩ }

theorem items_asRead (s : PointerGateway) :
    s.asRead.networkManagerMq.items = s.queue.items.map s.deref := rfl

/-- Where the cells that are pointed to stay, the messages do. -/
theorem asRead_of_intact {s t : PointerGateway} (queue : t.queue = s.queue)
    (intact : ∀ p ∈ s.queue.items, t.deref p = s.deref p) :
    t.asRead = { t.gateway with networkManagerMq := s.asRead.networkManagerMq } := by
  have items : t.queue.items.map t.deref = s.queue.items.map s.deref := by
    rw [queue]
    exact List.map_congr_left intact
  simp only [asRead, items]

/-- A pointer that is queued brings what it points to. -/
theorem asRead_networkMangerSendMessage (s : PointerGateway) (p : Pointer) :
    (s.networkMangerSendMessage p).asRead = s.asRead.networkMangerSendMessage (s.deref p) := by
  have length : s.asRead.networkManagerMq.items.length = s.queue.items.length := by
    rw [items_asRead, List.length_map]
  unfold networkMangerSendMessage Gateway.networkMangerSendMessage
  cases pushed : s.queue.push p with
  | none =>
      have full := (Fifo.push_eq_none_iff _ _).mp pushed
      rw [(Fifo.push_eq_none_iff _ _).mpr (length.trans full)]
  | some queue =>
      cases pushed' : s.asRead.networkManagerMq.push (s.deref p) with
      | none =>
          have full := (Fifo.push_eq_none_iff _ _).mp pushed'
          rw [(Fifo.push_eq_none_iff _ _).mpr (length.symm.trans full)] at pushed
          cases pushed
      | some messages =>
          have items : queue.items.map s.deref = messages.items := by
            rw [Fifo.items_of_push pushed, Fifo.items_of_push pushed', List.map_append,
              items_asRead, List.map_singleton]
          obtain ⟨items', bound⟩ := messages
          obtain rfl : queue.items.map s.deref = items' := items
          rfl

/-- Queueing a pointer writes into no cell. -/
theorem deref_networkMangerSendMessage (s : PointerGateway) (p q : Pointer) :
    (s.networkMangerSendMessage p).deref q = s.deref q := by
  unfold networkMangerSendMessage
  cases s.queue.push p <;> cases q <;> rfl

end PointerGateway

/-- The step as the messages read. When the memory of `SendData` is used for something else, the
threads do nothing. -/
def PointerTransition.asRead (τ : PointerTransition) : Option GatewayTransition :=
  match τ.event with
  | .gateway e => some ⟨τ.source.asRead, e, (), τ.target.asRead⟩
  | .reuse _ => none

/-- What the threads do, as the messages read. -/
def gatewaySteps (taken : List PointerTransition) : List GatewayTransition :=
  taken.filterMap PointerTransition.asRead

/-- The step writes nothing new into a cell that a queued pointer leads to. -/
def Intact (τ : PointerTransition) : Prop :=
  ∀ p ∈ τ.source.queue.items, τ.target.deref p = τ.source.deref p

instance (τ : PointerTransition) : Decidable (Intact τ) :=
  inferInstanceAs (Decidable (∀ p ∈ τ.source.queue.items, _))

/-! ## A step that leaves the messages intact -/

section Step

variable {site : Site} {s : PointerGateway}

/-- What a step of the Wi-Fi side leaves, as the messages read. -/
theorem asRead_behindWifi {e : WifiEvent} {wifi : WifiThread} {output : WifiOutput}
    (stepped : (wifiThread site.toSurroundings).step s.gateway.wifi e = some (wifi, output))
    (intact : ∀ p ∈ s.queue.items, (s.behindWifi e wifi output).deref p = s.deref p) :
    (s.behindWifi e wifi output).asRead = s.asRead.behindWifi e wifi output := by
  have step := wifiThread_cases stepped
  cases output with
  | message message =>
      obtain ⟨mqData, -⟩ := step.message_carries
      simp only [PointerGateway.behindWifi] at intact ⊢
      rw [PointerGateway.asRead_networkMangerSendMessage]
      simp only [PointerGateway.deref_networkMangerSendMessage] at intact
      rw [PointerGateway.asRead_of_intact (s := s) (by rfl) intact]
      have brings : wifi.wifi.mqData = message := mqData
      simp only [PointerGateway.deref, brings]
      rfl
  | nothing | answers | written =>
      simp only [PointerGateway.behindWifi] at intact ⊢
      rw [PointerGateway.asRead_of_intact (s := s) (by rfl) intact]
      rfl

theorem asRead_behindPlc {plc : Plc.PlcThread} {made : Option Plc.Packetised}
    (intact : ∀ p ∈ s.queue.items, (s.behindPlc plc made).deref p = s.deref p) :
    (s.behindPlc plc made).asRead = s.asRead.behindPlc plc made := by
  simp only [PointerGateway.behindPlc, Gateway.behindPlc] at intact ⊢
  cases sent : made.bind (·.sent) with
  | none =>
      simp only [sent] at intact ⊢
      rw [PointerGateway.asRead_of_intact (s := s) (by rfl) intact]
      rfl
  | some bytes =>
      simp only [sent, PointerGateway.sendData, Gateway.sendData] at intact ⊢
      split_ifs at intact ⊢ with ready ready' ready'
      · rw [PointerGateway.asRead_networkMangerSendMessage]
        simp only [PointerGateway.deref_networkMangerSendMessage] at intact
        rw [PointerGateway.asRead_of_intact (s := s) (by rfl) intact]
        rfl
      · exact absurd ready ready'
      · exact absurd ready' ready
      · rw [PointerGateway.asRead_of_intact (s := s) (by rfl) intact]
        rfl

/-- Handling a message writes into no cell. -/
theorem deref_handle (site : Site) (s : PointerGateway) (p : Pointer)
    (queue : Fifo Pointer networkmanagerMqSize) (q : Pointer) :
    (s.handle site p queue).deref q = s.deref q := by
  cases q with
  | wifiMqData => exact Gateway.mqData_handle site s.gateway (s.deref p)
  | sendDataFrame => rfl

/-- What is handled is what the first pointer points to. -/
theorem asRead_handle (site : Site) {p : Pointer} {queue : Fifo Pointer networkmanagerMqSize}
    (popped : s.queue.pop = some (p, queue)) :
    ∃ messages, s.asRead.networkManagerMq.pop = some (s.deref p, messages) ∧
      (s.handle site p queue).asRead =
        Gateway.handle site { s.asRead with networkManagerMq := messages } (s.deref p) := by
  have items := Fifo.items_of_pop popped
  have bound : (queue.items.map s.deref).length ≤ networkmanagerMqSize := by
    rw [List.length_map]
    exact queue.bound
  refine ⟨⟨queue.items.map s.deref, bound⟩, ?_, ?_⟩
  · simp only [PointerGateway.asRead, items, List.map_cons, Fifo.pop]
  · have same : queue.items.map (s.handle site p queue).deref = queue.items.map s.deref :=
      List.map_congr_left fun q _ => deref_handle site s p queue q
    have read : (s.handle site p queue).asRead =
        { Gateway.handle site s.gateway (s.deref p) with
          networkManagerMq := ⟨queue.items.map s.deref, bound⟩ } := by
      simp only [PointerGateway.asRead, PointerGateway.handle] at same ⊢
      simp only [same]
    rw [read, Gateway.handle_eq, Gateway.handle_eq]
    have decides : Gateway.reactionTo site { s.asRead with
        networkManagerMq := ⟨queue.items.map s.deref, bound⟩ } (s.deref p) =
          s.gateway.reactionTo site (s.deref p) := rfl
    rw [decides]
    cases s.gateway.reactionTo site (s.deref p) <;> rfl

/-- **A step that leaves the messages intact is one of `gateway`, as the messages read.** -/
theorem gateway_of_intact {τ : PointerTransition} (takes : (pointerGateway site).Takes τ)
    (intact : Intact τ) :
    (gateway site).Run τ.source.asRead τ.asRead.toList τ.target.asRead := by
  obtain ⟨s, e, o, s'⟩ := τ
  have runs : s.asRead.rebooted = false := (pointerGateway_cases takes).1
  have step : PointerStep site s e s' := (pointerGateway_cases takes).2
  have single {e : GatewayEvent} {g' : Gateway}
      (step : (gateway site).step s.asRead e = some (g', ())) :
      (gateway site).Run s.asRead [⟨s.asRead, e, (), g'⟩] g' :=
    Machine.Run.single (τ := ⟨s.asRead, e, (), g'⟩) step
  cases step with
  | @wifi e wifi output stepped own =>
      refine single ?_
      rw [asRead_behindWifi stepped intact]
      have stepped' : (wifiThread site.toSurroundings).step s.asRead.wifi e =
          some (wifi, output) := stepped
      cases e with
      | store call => exact absurd rfl (own call)
      | _ => simp only [gateway, runs, Bool.false_eq_true, if_false, stepped']
  | plc turn =>
      refine single ?_
      rw [asRead_behindPlc intact]
      have turn' := turn
      change Plc.plccommRx s.asRead.plc _ s.asRead.incData _ = _ at turn'
      simp only [gateway, runs, Bool.false_eq_true, if_false, turn']
  | handle free popped =>
      refine single ?_
      obtain ⟨messages, first, handled⟩ := asRead_handle site popped
      have free' : s.asRead.wifi.calling = false := free
      rw [handled]
      simp only [gateway, runs, Bool.false_eq_true, if_false, first, free']
  | responseTimeout expires =>
      refine single ?_
      have expires' : s.asRead.manager.responseTimeoutTimer = true := expires
      simp only [gateway, runs, Bool.false_eq_true, if_false, expires', if_true]
      rfl
  | @reuse contents =>
      have same : PointerGateway.asRead { s with frame := contents } = s.asRead :=
        PointerGateway.asRead_of_intact (s := s) (by rfl) intact
      rw [show PointerTransition.asRead ⟨s, .reuse contents, o, { s with frame := contents }⟩ = none
        from rfl, same]
      exact .nil

end Step

/-- **While the messages stay intact, the run is one of `gateway`.** -/
theorem gateway_run_of_intact {site : Site} {first last : PointerGateway}
    {taken : List PointerTransition} (run : (pointerGateway site).Run first taken last)
    (intact : ∀ τ ∈ taken, Intact τ) :
    (gateway site).Run first.asRead (gatewaySteps taken) last.asRead := by
  rw [gatewaySteps, List.filterMap_eq_flatMap_toList]
  exact run.images PointerGateway.asRead _ fun τ member takes =>
    gateway_of_intact takes (intact τ member)

/-! ## The queue of pointers alone -/

namespace Network

/-- The queue alone goes from here to there, and what it dispatches. It disturbs nothing exactly if
`intact`. -/
def Path (t : MessagePath) (dispatched : List MqData) (intact : Prop) (t' : MessagePath) : Prop :=
  ∃ path, messagePath.Run t path t' ∧ path.filterMap dispatchedMessage = dispatched ∧
    ((∀ σ ∈ path, Undisturbed σ) ↔ intact)

section Path

variable {t t' t'' : MessagePath} {before later : List MqData} {intact intact' : Prop}

theorem Path.nil : Path t [] True t := ⟨[], .nil, rfl, by simp⟩

theorem Path.single {e : MessageEvent} {o : MessageOutput}
    (step : messagePath.step t e = some (t', o)) :
    Path t (dispatchedMessage ⟨t, e, o, t'⟩).toList (Undisturbed ⟨t, e, o, t'⟩) t' :=
  ⟨[⟨t, e, o, t'⟩], Machine.Run.single (τ := ⟨t, e, o, t'⟩) step,
    Machine.Ledger.filterMap_singleton_toList dispatchedMessage _, by simp⟩

theorem Path.append (path : Path t before intact t') (behind : Path t' later intact' t'') :
    Path t (before ++ later) (intact ∧ intact') t'' := by
  obtain ⟨taken, run, dispatched, undisturbed⟩ := path
  obtain ⟨taken', run', dispatched', undisturbed'⟩ := behind
  refine ⟨taken ++ taken', run.append run', ?_, ?_⟩
  · rw [List.filterMap_append, dispatched, dispatched']
  · rw [List.forall_mem_append, undisturbed, undisturbed']

theorem Path.congr (path : Path t before intact t') (same : before = later)
    (iff : intact ↔ intact') : Path t later intact' t' := by
  obtain ⟨taken, run, dispatched, undisturbed⟩ := path
  exact ⟨taken, run, dispatched.trans same, undisturbed.trans iff⟩

/-- Sending a pointer writes into no cell and dispatches nothing. -/
theorem Path.sends {e : MessageEvent} {p : Pointer}
    (step : messagePath.step t e = some (networkMangerSendMessage t' p))
    (writes : ∀ t'' o, Undisturbed ⟨t, e, o, t''⟩) :
    Path t [] True (networkMangerSendMessage t' p).1 := by
  cases sent : networkMangerSendMessage t' p with
  | mk t'' o =>
      rw [sent] at step
      refine (Path.single step).congr ?_ (iff_true_intro (writes t'' o))
      unfold networkMangerSendMessage at sent
      cases pushed : t'.queue.push p with
      | none =>
          rw [pushed] at sent
          cases sent
          rfl
      | some queue =>
          rw [pushed] at sent
          cases sent
          rfl

variable (idle : t.stage = fun _ => .idle) (gone : t.sendData = .gone)
  (waits : t.manager = .waiting)
include waits

/-- While the manager waits, a cell is awaited when a pointer to it is queued. -/
theorem headAwaited_iff (p : Pointer) : t.headAwaited p ↔ p ∈ t.queue.items := by
  simp [MessagePath.headAwaited, waits, Copying.whole]

theorem dataAwaited_iff (p : Pointer) : t.dataAwaited p ↔ p ∈ t.queue.items := by
  simp [MessagePath.dataAwaited, waits, Copying.open_]

include idle in
/-- A sender names its message, copies the network status, and sends. -/
theorem path_of_copying {s : Sender} (copies : s.copies = true) {messge : Smsg}
    (names : s.names messge = true) (info : NetworkInfoData) {message : MqData}
    (same : message = ⟨messge, sizeofData, .networkInfo info⟩) :
    Path t [] (.wifiMqData ∈ t.queue.items → message = t.mqData)
      (networkMangerSendMessage { t with mqData := message } .wifiMqData).1 := by
  subst same
  let t₁ : MessagePath :=
    { t with
      mqData := { t.mqData with messge := messge }
      stage := Function.update t.stage s .named }
  let t₂ : MessagePath :=
    { t with
      mqData := ⟨messge, sizeofData, .networkInfo info⟩
      stage := Function.update t.stage s .copied }
  let t₃ : MessagePath := { t with mqData := ⟨messge, sizeofData, .networkInfo info⟩ }
  have named : messagePath.step t (.name s messge) = some (t₁, .nothing) := by
    simp [messagePath, idle, names, t₁]
  have copied : messagePath.step t₁ (.copy s info) = some (t₂, .nothing) := by
    simp [messagePath, copies, t₁, t₂]
  have rests : { t₂ with stage := Function.update t₂.stage s .idle } = t₃ := by
    simp [t₂, t₃, idle]
  have sent : messagePath.step t₂ (.send s) = some (networkMangerSendMessage t₃ .wifiMqData) := by
    simp only [messagePath, rests]
    simp [t₂, Sender.ready, copies]
  refine ((Path.single named).append ((Path.single copied).append
    (Path.sends sent fun _ _ => trivial))).congr rfl ?_
  have waits₁ : t₁.manager = .waiting := waits
  simp only [Undisturbed, headAwaited_iff waits, headAwaited_iff waits₁, dataAwaited_iff waits₁,
    MqData.eq_iff, t₁]
  tauto

include idle in
/-- `SendTimeoutTimer` names its message and sends. -/
theorem path_of_sendTimeout :
    Path t [] (.wifiMqData ∈ t.queue.items → { t.mqData with messge := .wifiError } = t.mqData)
      (networkMangerSendMessage { t with mqData := { t.mqData with messge := .wifiError } }
        .wifiMqData).1 := by
  let t₁ : MessagePath :=
    { t with
      mqData := { t.mqData with messge := .wifiError }
      stage := Function.update t.stage .sendTimeoutTimer .named }
  let t₂ : MessagePath := { t with mqData := { t.mqData with messge := .wifiError } }
  have named : messagePath.step t (.name .sendTimeoutTimer .wifiError) = some (t₁, .nothing) := by
    simp [messagePath, idle, Sender.names, t₁]
  have rests : { t₁ with stage := Function.update t₁.stage .sendTimeoutTimer .idle } = t₂ := by
    simp [t₁, t₂, idle]
  have sent : messagePath.step t₁ (.send .sendTimeoutTimer) =
      some (networkMangerSendMessage t₂ .wifiMqData) := by
    simp only [messagePath, rests]
    simp [t₁, Sender.ready, Sender.copies]
  refine ((Path.single named).append (Path.sends sent fun _ _ => trivial)).congr rfl ?_
  simp only [Undisturbed, headAwaited_iff waits, MqData.eq_iff]
  tauto

include gone in
/-- `SendData` fills its frame, sends it, and returns. -/
theorem path_of_sendData (bytes : List UInt8) :
    Path t [] (.sendDataFrame ∈ t.queue.items →
        (⟨.tcpSendData, bytes.length, .packets bytes⟩ : MqData) = t.frame)
      (networkMangerSendMessage
        { t with frame := ⟨.tcpSendData, bytes.length, .packets bytes⟩ } .sendDataFrame).1 := by
  let frame : MqData := ⟨.tcpSendData, bytes.length, .packets bytes⟩
  let t₁ : MessagePath :=
    { t with
      frame := { t.frame with messge := .tcpSendData, size := bytes.length }, sendData := .headed }
  let t₂ : MessagePath := { t with frame := frame, sendData := .filled }
  let t₃ : MessagePath := { t with frame := frame, sendData := .sent }
  let t₄ : MessagePath := { t with frame := frame }
  have entered : messagePath.step t (.enter bytes.length) = some (t₁, .nothing) := by
    simp [messagePath, gone, t₁]
  have filled : messagePath.step t₁ (.fill bytes) = some (t₂, .nothing) := by
    simp [messagePath, t₁, t₂, frame]
  have sent : messagePath.step t₂ .sendFrame =
      some (networkMangerSendMessage t₃ .sendDataFrame) := by
    simp [messagePath, t₂, t₃]
  have left : messagePath.step (networkMangerSendMessage t₃ .sendDataFrame).1 .leave =
      some ((networkMangerSendMessage t₄ .sendDataFrame).1, .nothing) := by
    have queue : t₃.queue = t₄.queue := rfl
    simp only [messagePath, networkMangerSendMessage, queue]
    cases t₄.queue.push .sendDataFrame <;> simp [t₃, t₄, gone]
  refine ((Path.single entered).append ((Path.single filled).append
    ((Path.sends sent fun _ _ => trivial).append (Path.single left)))).congr rfl ?_
  have waits₁ : t₁.manager = .waiting := waits
  simp only [Undisturbed, headAwaited_iff waits, dataAwaited_iff waits₁, MqData.eq_iff, t₁]
  tauto

/-- The manager takes a pointer, copies what it points to, and dispatches it. -/
theorem path_of_handling {p : Pointer} {queue : Fifo Pointer networkmanagerMqSize}
    (popped : t.queue.pop = some (p, queue)) :
    Path t [t.deref p] True { t with queue := queue } := by
  let t₁ : MessagePath := { t with queue := queue, manager := .taken p }
  let t₂ : MessagePath :=
    { t₁ with manager := .headed p (t₁.deref p).messge (t₁.deref p).size }
  let t₃ : MessagePath := { t₁ with manager := .copied (t.deref p) }
  have taken : messagePath.step t .recv = some (t₁, .nothing) := by
    simp only [messagePath, waits, popped, t₁]
  have headed : messagePath.step t₁ .copyHeader = some (t₂, .nothing) := rfl
  have copied : messagePath.step t₂ .copyData = some (t₃, .nothing) := by
    cases p <;> rfl
  have dispatched : messagePath.step t₃ .dispatch =
      some ({ t with queue := queue }, .dispatched (t.deref p)) := by
    simp only [messagePath, t₃, t₁, waits]
  exact ((Path.single taken).append ((Path.single headed).append
    ((Path.single copied).append (Path.single dispatched)))).congr rfl (by simp [Undisturbed])

end Path

end Network

/-- The cells and the queue. Nobody is sending, and the manager waits. -/
def PointerGateway.path (s : PointerGateway) : MessagePath where
  mqData := s.gateway.wifi.wifi.mqData
  frame := s.frame
  queue := s.queue
  stage := fun _ => .idle
  sendData := .gone
  manager := .waiting

theorem path_networkMangerSendMessage (s : PointerGateway) (p : Pointer) :
    (s.networkMangerSendMessage p).path = (Network.networkMangerSendMessage s.path p).1 := by
  unfold PointerGateway.networkMangerSendMessage Network.networkMangerSendMessage
  have queue : s.path.queue = s.queue := rfl
  rw [queue]
  cases s.queue.push p <;> rfl

/-- The message that the manager handles in a step, as it reads. -/
def handledMessage (τ : PointerTransition) : Option MqData := τ.asRead.bind handledIn

theorem filterMap_handledMessage (taken : List PointerTransition) :
    taken.filterMap handledMessage = (gatewaySteps taken).filterMap handledIn := by
  rw [gatewaySteps, List.filterMap_filterMap]
  rfl

section Step

variable {site : Site} {s s' : PointerGateway} {e : PointerEvent} {o : Unit}

theorem intact_iff : Intact ⟨s, e, o, s'⟩ ↔
    (.wifiMqData ∈ s.queue.items → s'.deref .wifiMqData = s.deref .wifiMqData) ∧
      (.sendDataFrame ∈ s.queue.items → s'.deref .sendDataFrame = s.deref .sendDataFrame) := by
  constructor
  · intro intact
    exact ⟨intact .wifiMqData, intact .sendDataFrame⟩
  · rintro ⟨mqData, frame⟩ (_ | _) queued
    · exact mqData queued
    · exact frame queued

/-- Where no cell is written, nothing is disturbed. -/
theorem path_of_same (path : s'.path = s.path) (handles : handledMessage ⟨s, e, o, s'⟩ = none) :
    Path s.path (handledMessage ⟨s, e, o, s'⟩).toList (Intact ⟨s, e, o, s'⟩) s'.path := by
  have mqData : s'.deref .wifiMqData = s.deref .wifiMqData := congrArg MessagePath.mqData path
  have frame : s'.deref .sendDataFrame = s.deref .sendDataFrame :=
    congrArg MessagePath.frame path
  rw [path, handles, intact_iff]
  exact Path.nil.congr rfl (iff_of_true trivial ⟨fun _ => mqData, fun _ => frame⟩)

/-- A message of the Wi-Fi side. -/
theorem path_of_message {e : WifiEvent} {wifi : WifiThread} {message : MqData}
    (step : WifiStep site.toSurroundings s.gateway.wifi e wifi (.message message)) :
    Path s.path [] (.wifiMqData ∈ s.queue.items → message = s.gateway.wifi.wifi.mqData)
      (Network.networkMangerSendMessage { s.path with mqData := message } .wifiMqData).1 := by
  generalize posted : WifiOutput.message message = output at step
  cases step with
  | respond =>
      simp only [postResponse] at posted
      cases code : responseMessage s.gateway.wifi.wifi.networkInfoData.response with
      | none =>
          rw [code] at posted
          cases posted
      | some messge =>
          rw [code] at posted
          have names : Sender.names .wifiRxThread messge = true := by
            revert code
            cases s.gateway.wifi.wifi.networkInfoData.response <;> rintro ⟨⟩ <;> rfl
          exact path_of_copying rfl rfl (s := .wifiRxThread) rfl names _
            (WifiOutput.message.inj posted)
  | wifiTimeout =>
      have names : Sender.names .wifiTimeoutTimer .wifiTimeout = true := rfl
      exact path_of_copying rfl rfl rfl names _ (WifiOutput.message.inj posted)
  | sendTimeout =>
      cases posted
      exact path_of_sendTimeout rfl rfl
  | _ => cases posted

theorem path_behindWifi {e : WifiEvent} {wifi : WifiThread} {output : WifiOutput}
    (stepped : (wifiThread site.toSurroundings).step s.gateway.wifi e = some (wifi, output))
    (own : ∀ call, e ≠ .store call) :
    Path s.path (handledMessage ⟨s, .gateway (.wifi e), o, s.behindWifi e wifi output⟩).toList
      (Intact ⟨s, .gateway (.wifi e), o, s.behindWifi e wifi output⟩)
      (s.behindWifi e wifi output).path := by
  have step := wifiThread_cases stepped
  have silent (silent : ∀ message, output ≠ .message message)
      (path : (s.behindWifi e wifi output).path =
        { s.path with mqData := wifi.wifi.mqData }) :
      Path s.path (handledMessage ⟨s, .gateway (.wifi e), o, s.behindWifi e wifi output⟩).toList
        (Intact ⟨s, .gateway (.wifi e), o, s.behindWifi e wifi output⟩)
        (s.behindWifi e wifi output).path := by
    have same : wifi.wifi.mqData = s.gateway.wifi.wifi.mqData := (step.silent_tells silent own).1
    refine path_of_same (path.trans ?_) rfl
    rw [same]
    rfl
  cases output with
  | message message =>
      obtain ⟨mqData, -⟩ := step.message_carries
      have brings : wifi.wifi.mqData = message := mqData
      have path := path_of_message step
      rw [← brings] at path
      simp only [PointerGateway.behindWifi]
      rw [path_networkMangerSendMessage]
      refine path.congr rfl (Iff.trans ?_ intact_iff.symm)
      simp only [PointerGateway.deref_networkMangerSendMessage]
      exact ⟨fun same => ⟨same, fun _ => rfl⟩, And.left⟩
  | nothing => exact silent (by simp) rfl
  | answers => exact silent (by simp) rfl
  | written => exact silent (by simp) rfl

theorem path_behindPlc {rx : Bool} {reads : List (List UInt8)} {plc : Plc.PlcThread}
    {made : Option Plc.Packetised} :
    Path s.path (handledMessage ⟨s, .gateway (.plc rx reads), o, s.behindPlc plc made⟩).toList
      (Intact ⟨s, .gateway (.plc rx reads), o, s.behindPlc plc made⟩)
      (s.behindPlc plc made).path := by
  simp only [PointerGateway.behindPlc]
  cases made.bind (·.sent) with
  | none => exact path_of_same rfl rfl
  | some bytes =>
      simp only [PointerGateway.sendData]
      split_ifs
      · rw [path_networkMangerSendMessage]
        refine (path_of_sendData rfl rfl bytes).congr rfl (Iff.trans ?_ intact_iff.symm)
        simp only [PointerGateway.deref_networkMangerSendMessage]
        exact ⟨fun same => ⟨fun _ => rfl, same⟩, And.right⟩
      · exact path_of_same rfl rfl

theorem path_handle {p : Pointer} {queue : Fifo Pointer networkmanagerMqSize}
    (popped : s.queue.pop = some (p, queue)) :
    Path s.path (handledMessage ⟨s, .gateway .handle, o, s.handle site p queue⟩).toList
      (Intact ⟨s, .gateway .handle, o, s.handle site p queue⟩) (s.handle site p queue).path := by
  obtain ⟨messages, first, -⟩ := asRead_handle site popped
  have handled : handledMessage ⟨s, .gateway .handle, o, s.handle site p queue⟩ =
      some (s.deref p) := handledIn_handle first
  have path : (s.handle site p queue).path = { s.path with queue := queue } := by
    have mqData : (s.handle site p queue).gateway.wifi.wifi.mqData =
        s.gateway.wifi.wifi.mqData := deref_handle site s p queue .wifiMqData
    simp only [PointerGateway.path, mqData]
    rfl
  rw [handled, path]
  refine (path_of_handling rfl popped).congr ?_
    (iff_of_true trivial fun q _ => deref_handle site s p queue q)
  cases p <;> rfl

/-- The memory of `SendData` is used for something else. -/
theorem path_reuse (contents : MqData) :
    Path s.path [] (Intact ⟨s, .reuse contents, o, { s with frame := contents }⟩)
      { s.path with frame := contents } := by
  have reused : messagePath.step s.path (.reuse contents) =
      some ({ s.path with frame := contents }, .nothing) := rfl
  refine (Path.single reused).congr rfl (Iff.trans ?_ intact_iff.symm)
  have waits : s.path.manager = .waiting := rfl
  simp only [Undisturbed, headAwaited_iff waits, dataAwaited_iff waits]
  have parts := MqData.eq_iff contents s.frame
  constructor
  · rintro ⟨head, data⟩
    exact ⟨fun _ => rfl, fun queued => parts.mpr ⟨head queued, data queued⟩⟩
  · rintro ⟨-, same⟩
    exact ⟨fun queued => (parts.mp (same queued)).1, fun queued => (parts.mp (same queued)).2⟩

/-- **One step.** The queue alone does what a step does with it. It dispatches what the manager
handles, and disturbs nothing exactly if the messages stay intact. -/
theorem path_of_step {τ : PointerTransition} (takes : (pointerGateway site).Takes τ) :
    Path τ.source.path (handledMessage τ).toList (Intact τ) τ.target.path := by
  obtain ⟨s, e, o, s'⟩ := τ
  have step : PointerStep site s e s' := (pointerGateway_cases takes).2
  cases step with
  | wifi stepped own => exact path_behindWifi stepped own
  | plc => exact path_behindPlc
  | handle _ popped => exact path_handle popped
  | responseTimeout => exact path_of_same rfl rfl
  | reuse => exact path_reuse _

end Step

/-! ## Whole runs -/

/-- Each run is one of the queue alone. -/
theorem path_of_run {site : Site} {first last : PointerGateway} {taken : List PointerTransition}
    (run : (pointerGateway site).Run first taken last) :
    Path first.path (taken.filterMap handledMessage) (∀ τ ∈ taken, Intact τ) last.path := by
  induction run with
  | nil => exact Path.nil.congr rfl (by simp)
  | @snoc taken s τ _ joins takes ih =>
      rw [← joins] at ih
      refine (ih.append (path_of_step takes)).congr ?_ ?_
      · rw [List.filterMap_append, Machine.Ledger.filterMap_singleton_toList]
      · rw [List.forall_mem_append, List.forall_mem_singleton]

/-- **The messages of a gateway.** Each run from an empty queue is one of the queue alone, which
dispatches what the manager handles. There every message is dispatched as it was accepted, once and
in order, exactly if every step of the gateway leaves the messages intact. -/
theorem messages_are_intact_in_gateway {site : Site} {first last : PointerGateway}
    {taken : List PointerTransition} (run : (pointerGateway site).Run first taken last)
    (empty : first.queue.items = []) :
    ∃ path, messagePath.Run first.path path last.path ∧
      path.filterMap dispatchedMessage = (gatewaySteps taken).filterMap handledIn ∧
      (Machine.Throughout messages.Exact path last.path ↔ ∀ τ ∈ taken, Intact τ) := by
  obtain ⟨path, along, dispatched, undisturbed⟩ := path_of_run run
  have nothing : first.path.inFlight = [] := by
    simp only [MessagePath.inFlight, MessagePath.carried, PointerGateway.path, empty, List.map_nil,
      List.append_nil]
  exact ⟨path, along, dispatched.trans (filterMap_handledMessage taken),
    (messages_are_intact_iff along nothing).trans undisturbed⟩

/-- `NetworkManagerThread` has issued its first command, and the queue is empty. -/
def startPointerGateway (site : Site) : PointerGateway where
  gateway := startGateway site
  frame := ⟨.wifiOk, 0, .packets []⟩
  queue := .empty Pointer networkmanagerMqSize

theorem asRead_startPointerGateway (site : Site) :
    (startPointerGateway site).asRead = startGateway site := rfl

/-- What the threads and timers do. -/
def threads (events : List GatewayEvent) : List PointerEvent := events.map .gateway

end WhaleShark

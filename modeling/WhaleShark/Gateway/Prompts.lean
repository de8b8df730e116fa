import WhaleShark.Gateway.PointerQueue
import WhaleShark.Gateway.StopAndWait

/-!
# Raw data only behind a prompt

The module takes the bytes of a packet only behind the prompt that answers `CIPSEND`; anywhere else
it reads them as commands. `permitOf` follows a run and says what is permitted: the module has been
told the length of a packet, has prompted for it, and a message has brought the prompt to the
manager. The call of `TcpSendData` uses the prompt up.

A message that says `STATUS_READY_TO_SEND_DATA` makes the manager call `TcpSendData` (`Ready`).
While the messages stay intact, such a message comes only from the prompt, at most one is queued,
and no new packet is taken over beside it, each call is permitted (`sends_are_prompted`). Three
things in the code break this: a packet that is refused is sent again without asking
(`refused_packet_is_sent_raw`), the timer for the server's answer posts the last message once more
as an error, and an answer may be overwritten by the next (`overwritten_answer_sends_twice`).
-/

set_option autoImplicit false

namespace WhaleShark

open Foundations Network

/-! ## What is permitted -/

/-- The packet that the manager has taken over, and its length. -/
def Gateway.packet (g : Gateway) : Block UInt8 tcpBufferMax × UInt16 :=
  (g.manager.tcpSendBuffer, g.manager.tcpSendLength)

/-- What the manager does in a step that handles a message. -/
def reactionIn (site : Site) (τ : GatewayTransition) : Option Reaction :=
  (handledIn τ).map (τ.source.reactionTo site)

/-- The manager calls `TcpSendData`. -/
def Sends (site : Site) (τ : GatewayTransition) : Prop :=
  reactionIn site τ = some .sendData ∨ reactionIn site τ = some .resend

/-- The prompt is recognised. -/
def Prompts (τ : GatewayTransition) : Prop :=
  τ.source.wifi.wifi.networkInfoData.networkStatus = .setSendDataLength ∧
    τ.target.wifi.wifi.networkInfoData.networkStatus = .readyToSendData

/-- A message that says that the module is ready for data. -/
def Ready (site : Site) (message : MqData) : Prop :=
  (message.messge = .wifiOk ∨ message.messge = .wifiError) ∧
    (site.laid message.data).1 = some .readyToSendData

/-- The message that a step of the Wi-Fi side posts. -/
def postedBy (w : WifiInfo) : WifiEvent → Option MqData
  | .read [] =>
      match (postResponse w).2 with
      | .message message => some message
      | _ => none
  | .wifiTimeout => some (wifiTimeoutTimer w).2
  | .sendTimeout => some (sendTimeoutTimer w).2
  | _ => none

/-- The message that the Wi-Fi side puts into the queue in this step. -/
def queuedIn (τ : GatewayTransition) : Option MqData :=
  match τ.event with
  | .wifi e =>
      if τ.source.networkManagerMq.items.length < networkmanagerMqSize then
        postedBy τ.source.wifi.wifi e
      else none
  | _ => none

/-- A message that says ready is put into the queue. -/
def QueuesReady (site : Site) (τ : GatewayTransition) : Prop :=
  ∃ message, queuedIn τ = some message ∧ Ready site message

instance (site : Site) (τ : GatewayTransition) : Decidable (Sends site τ) :=
  inferInstanceAs (Decidable (_ ∨ _))

instance (τ : GatewayTransition) : Decidable (Prompts τ) := inferInstanceAs (Decidable (_ ∧ _))

instance (site : Site) (message : MqData) : Decidable (Ready site message) :=
  inferInstanceAs (Decidable (_ ∧ _))

instance (site : Site) (τ : GatewayTransition) : Decidable (QueuesReady site τ) :=
  decidable_of_iff ((queuedIn τ).any (fun message => decide (Ready site message)) = true)
    (by simp [QueuesReady, Option.any_eq_true])

/-- How far it has come with the packet that is to be sent. -/
inductive Permit where
  | nothing
  /-- the module has been told the length -/
  | asked (packet : Block UInt8 tcpBufferMax × UInt16)
  /-- it has prompted -/
  | prompted (packet : Block UInt8 tcpBufferMax × UInt16)
  /-- and a message says so to the manager -/
  | posted (packet : Block UInt8 tcpBufferMax × UInt16)
  deriving DecidableEq

namespace Permit

def prompt : Permit → Permit
  | asked packet => prompted packet
  | permit => permit

def post : Permit → Permit
  | prompted packet => posted packet
  | permit => permit

/-- Behind a step. -/
def next (site : Site) (permit : Permit) (τ : GatewayTransition) : Permit :=
  if reactionIn site τ = some .setDataLength then asked τ.target.packet
  else if Sends site τ then nothing
  else if Prompts τ then permit.prompt
  else if QueuesReady site τ then permit.post
  else permit

end Permit

/-- Behind these steps. -/
def permitOf (site : Site) (past : List GatewayTransition) : Permit :=
  past.foldl (Permit.next site) .nothing

theorem permitOf_concat (site : Site) (past : List GatewayTransition) (τ : GatewayTransition) :
    permitOf site (past ++ [τ]) = (permitOf site past).next site τ := by
  rw [permitOf, List.foldl_append, List.foldl_cons, List.foldl_nil, permitOf]

/-- What is sent here is what a prompt has been given for, the prompt has not been used, and the
message that is handled says so. -/
def InTurn (site : Site) (past : List GatewayTransition) (τ : GatewayTransition) : Prop :=
  (∃ message, handledIn τ = some message ∧
      (site.laid message.data).1 = some .readyToSendData) ∧
    permitOf site past = .posted τ.source.packet

/-- Raw data is sent only behind a prompt for it, and once. -/
def SendsPrompted (site : Site) (taken : List GatewayTransition) : Prop :=
  ∀ past τ rest, taken = past ++ τ :: rest → Sends site τ → InTurn site past τ

instance (site : Site) (past : List GatewayTransition) (τ : GatewayTransition) :
    Decidable (InTurn site past τ) :=
  decidable_of_iff
    ((handledIn τ).any (fun message =>
        decide ((site.laid message.data).1 = some .readyToSendData)) = true ∧
      permitOf site past = .posted τ.source.packet)
    (by simp [InTurn, Option.any_eq_true])

instance (site : Site) (taken : List GatewayTransition) : Decidable (SendsPrompted site taken) :=
  decidable_of_iff
    (∀ (i : ℕ) (inside : i < taken.length), Sends site taken[i] →
      InTurn site (taken.take i) taken[i])
    (forall_split_iff (P := fun past τ => Sends site τ → InTurn site past τ)).symm

/-! ## The condition -/

def NoneReady (site : Site) (g : Gateway) : Prop :=
  ∀ message ∈ g.networkManagerMq.items, ¬ Ready site message

/-- A message that says ready is queued only while the module is ready and none is queued; a packet
is taken over only while none is queued; and a packet that is refused is not sent again at once. -/
structure Orderly (site : Site) (τ : GatewayTransition) : Prop where
  queues : QueuesReady site τ →
    τ.source.wifi.wifi.networkInfoData.networkStatus = .readyToSendData ∧ NoneReady site τ.source
  takesOver : reactionIn site τ = some .setDataLength → NoneReady site τ.source
  refused : reactionIn site τ ≠ some .resend

instance (site : Site) (g : Gateway) : Decidable (NoneReady site g) :=
  inferInstanceAs (Decidable (∀ message ∈ g.networkManagerMq.items, _))

instance (site : Site) (τ : GatewayTransition) : Decidable (Orderly site τ) :=
  decidable_of_iff
    ((QueuesReady site τ →
        τ.source.wifi.wifi.networkInfoData.networkStatus = .readyToSendData ∧
          NoneReady site τ.source) ∧
      (reactionIn site τ = some .setDataLength → NoneReady site τ.source) ∧
      reactionIn site τ ≠ some .resend)
    ⟨fun ⟨queues, takesOver, refused⟩ => ⟨queues, takesOver, refused⟩,
      fun ⟨queues, takesOver, refused⟩ => ⟨queues, takesOver, refused⟩⟩

/-! ## One step -/

/-- What is known of a gateway behind these steps. -/
structure Permitted (site : Site) (past : List GatewayTransition) (g : Gateway) : Prop where
  asked : g.wifi.wifi.networkInfoData.networkStatus = .setSendDataLength →
    permitOf site past = .asked g.packet
  ready : g.wifi.wifi.networkInfoData.networkStatus = .readyToSendData →
    permitOf site past = .prompted g.packet ∨ permitOf site past = .posted g.packet
  queue : ∀ message ∈ g.networkManagerMq.items, Ready site message →
    permitOf site past = .posted g.packet
  once : g.networkManagerMq.items.countP (fun message => Ready site message) ≤ 1

theorem Starts.permitted {site : Site} {g : Gateway} (starts : Starts g) : Permitted site [] g where
  asked := by simp [starts.wifi]
  ready := by simp [starts.wifi]
  queue := by simp [starts.queue]
  once := by simp [starts.queue]

section Queue

variable {site : Site} {messages : List MqData} {last : MqData}

/-- Behind a message that is not ready, the ready ones are those in front of it. -/
theorem mem_of_ready_append (notReady : ¬ Ready site last) {message : MqData}
    (member : message ∈ messages ++ [last]) (ready : Ready site message) : message ∈ messages := by
  rcases List.mem_append.mp member with earlier | new
  · exact earlier
  · exact absurd (List.mem_singleton.mp new ▸ ready) notReady

theorem countP_ready_append (notReady : ¬ Ready site last) :
    (messages ++ [last]).countP (fun message => Ready site message) =
      messages.countP fun message => Ready site message := by
  rw [List.countP_append, List.countP_singleton, if_neg (by simpa using notReady), Nat.add_zero]

end Queue

/-- A step that permits what was permitted, about the same packet. -/
theorem Permitted.keep {site : Site} {past : List GatewayTransition} {τ : GatewayTransition}
    (before : Permitted site past τ.source)
    (permit : (permitOf site past).next site τ = permitOf site past)
    (packet : τ.target.packet = τ.source.packet)
    (status : τ.target.wifi.wifi.networkInfoData.networkStatus =
        τ.source.wifi.wifi.networkInfoData.networkStatus ∨
      (τ.target.wifi.wifi.networkInfoData.networkStatus ≠ .setSendDataLength ∧
        τ.target.wifi.wifi.networkInfoData.networkStatus ≠ .readyToSendData))
    (queue : ∀ message ∈ τ.target.networkManagerMq.items, Ready site message →
      message ∈ τ.source.networkManagerMq.items)
    (once : τ.target.networkManagerMq.items.countP (fun message => Ready site message) ≤
      τ.source.networkManagerMq.items.countP fun message => Ready site message) :
    Permitted site (past ++ [τ]) τ.target := by
  have same : permitOf site (past ++ [τ]) = permitOf site past := by rw [permitOf_concat, permit]
  refine ⟨?_, ?_, ?_, once.trans before.once⟩
  · intro asked
    rw [same, packet]
    rcases status with kept | ⟨other, -⟩
    · exact before.asked (kept.symm.trans asked)
    · exact absurd asked other
  · intro ready
    rw [same, packet]
    rcases status with kept | ⟨-, other⟩
    · exact before.ready (kept.symm.trans ready)
    · exact absurd ready other
  · intro message member ready
    rw [same, packet]
    exact before.queue message (queue message member ready) ready

section Next

variable {site : Site} {permit : Permit} {τ : GatewayTransition}

theorem next_of_unhandled (unhandled : reactionIn site τ = none) :
    permit.next site τ =
      if Prompts τ then permit.prompt else if QueuesReady site τ then permit.post else permit := by
  have silent : ¬ Sends site τ := by
    rintro (sends | sends)
    · rw [unhandled] at sends
      cases sends
    · rw [unhandled] at sends
      cases sends
  rw [Permit.next, unhandled, if_neg (by simp), if_neg silent]

theorem next_of_kept (unhandled : reactionIn site τ = none) (still : ¬ Prompts τ)
    (quiet : ¬ QueuesReady site τ) : permit.next site τ = permit := by
  rw [next_of_unhandled unhandled, if_neg still, if_neg quiet]

/-- A step that keeps the network status of the Wi-Fi side is no prompt. -/
theorem not_prompts (kept : τ.target.wifi.wifi.networkInfoData.networkStatus =
    τ.source.wifi.wifi.networkInfoData.networkStatus) : ¬ Prompts τ := by
  rintro ⟨asked, ready⟩
  rw [kept, asked] at ready
  cases ready

end Next

theorem packet_sendData (g : Gateway) (pData : List UInt8) : (g.sendData pData).packet = g.packet := by
  simp only [Gateway.packet, Gateway.manager_sendData]
  split <;> rfl

theorem packet_behindWifi (g : Gateway) (e : WifiEvent) (wifi : WifiThread) (output : WifiOutput) :
    (g.behindWifi e wifi output).packet = g.packet := by
  rw [Gateway.packet, Gateway.manager_behindWifi, Gateway.packet]

theorem packet_behindPlc (g : Gateway) (plc : Plc.PlcThread) (made : Option Plc.Packetised) :
    (g.behindPlc plc made).packet = g.packet := by
  unfold Gateway.behindPlc
  split
  · rfl
  · rw [packet_sendData]
    rfl

/-- What a step of the Wi-Fi side posts is its output. -/
theorem postedBy_iff {env : Surroundings} {t t' : WifiThread} {e : WifiEvent} {o : WifiOutput}
    (step : WifiStep env t e t' o) (message : MqData) :
    postedBy t.wifi e = some message ↔ o = .message message := by
  cases step with
  | respond =>
      simp only [postedBy]
      cases (postResponse t.wifi).2 <;> simp
  | @read bytes reading some_ room =>
      cases bytes with
      | nil => exact absurd rfl some_
      | cons => simp [postedBy]
  | wifiTimeout => simp [postedBy]
  | sendTimeout => simp [postedBy]
  | _ => simp [postedBy]

/-! ### A step of the Wi-Fi side -/

section Wifi

variable {site : Site} {past : List GatewayTransition} {g : Gateway} {e : WifiEvent} {o : Unit}
  {wifi : WifiThread} {output : WifiOutput}

/-- Nothing is posted. -/
theorem permitted_silent (step : WifiStep site.toSurroundings g.wifi e wifi output)
    (own : ∀ call, e ≠ .store call) (silent : ∀ message, output ≠ .message message)
    (before : Permitted site past g) :
    Permitted site (past ++ [⟨g, .wifi e, o, g.behindWifi e wifi output⟩])
      (g.behindWifi e wifi output) := by
  obtain ⟨-, status⟩ := step.silent_tells silent own
  have queue := Gateway.networkManagerMq_behindWifi g e wifi silent
  have packet := packet_behindWifi g e wifi output
  have behind := Gateway.wifi_behindWifi g e wifi output
  have quiet : ¬ QueuesReady site ⟨g, .wifi e, o, g.behindWifi e wifi output⟩ := by
    rintro ⟨message, queued, -⟩
    obtain ⟨-, posted⟩ := Option.ite_none_right_eq_some.mp queued
    exact silent message ((postedBy_iff step message).mp posted)
  generalize was : g.wifi.wifi.networkInfoData.networkStatus = a at status
  generalize is_ : wifi.wifi.networkInfoData.networkStatus = b at status
  cases status with
  | prompted =>
      have asked := before.asked was
      have prompts : Prompts ⟨g, .wifi e, o, g.behindWifi e wifi output⟩ :=
        ⟨was, by rw [behind, is_]⟩
      have permit : permitOf site (past ++ [⟨g, .wifi e, o, g.behindWifi e wifi output⟩]) =
          .prompted (g.behindWifi e wifi output).packet := by
        rw [permitOf_concat, next_of_unhandled rfl, if_pos prompts, asked, packet]
        rfl
      refine ⟨?_, fun _ => .inl permit, ?_, ?_⟩
      · rw [behind, is_]
        intro asked
        cases asked
      · intro message member ready
        rw [queue] at member
        have used := before.queue message member ready
        rw [asked] at used
        cases used
      · rw [queue]
        exact before.once
  | same =>
      have kept : (g.behindWifi e wifi output).wifi.wifi.networkInfoData.networkStatus =
          g.wifi.wifi.networkInfoData.networkStatus := by rw [behind, was, is_]
      refine before.keep (next_of_kept rfl (not_prompts kept) quiet) packet (.inl kept) ?_ ?_
      · intro message member _
        rwa [queue] at member
      · rw [queue]
  | reports said =>
      have other : b ≠ .setSendDataLength ∧ b ≠ .readyToSendData := by
        constructor <;>
        · rintro rfl
          simp [reported] at said
      have still : ¬ Prompts ⟨g, .wifi e, o, g.behindWifi e wifi output⟩ := by
        rintro ⟨-, ready⟩
        rw [behind, is_] at ready
        exact other.2 ready
      refine before.keep (next_of_kept rfl still quiet) packet (.inr ?_) ?_ ?_
      · rw [behind, is_]
        exact other
      · intro message member _
        rwa [queue] at member
      · rw [queue]

/-- A message is posted, and queued when there is room. -/
theorem permitted_message {message : MqData}
    (step : WifiStep site.toSurroundings g.wifi e wifi (.message message))
    (orderly : Orderly site ⟨g, .wifi e, o, g.behindWifi e wifi (.message message)⟩)
    (before : Permitted site past g) :
    Permitted site (past ++ [⟨g, .wifi e, o, g.behindWifi e wifi (.message message)⟩])
      (g.behindWifi e wifi (.message message)) := by
  obtain ⟨-, status, -⟩ := step.message_carries
  have items := Gateway.items_behindWifi g e wifi message
  have packet := packet_behindWifi g e wifi (.message message)
  have kept : (g.behindWifi e wifi (.message message)).wifi.wifi.networkInfoData.networkStatus =
      g.wifi.wifi.networkInfoData.networkStatus := by rw [Gateway.wifi_behindWifi, status]
  have queued : queuedIn ⟨g, .wifi e, o, g.behindWifi e wifi (.message message)⟩ =
      if g.networkManagerMq.items.length < networkmanagerMqSize then some message else none := by
    simp only [queuedIn, (postedBy_iff step message).mpr rfl]
  by_cases queues : QueuesReady site ⟨g, .wifi e, o, g.behindWifi e wifi (.message message)⟩
  · obtain ⟨isReady, noneReady⟩ := orderly.queues queues
    have permit : permitOf site
        (past ++ [⟨g, .wifi e, o, g.behindWifi e wifi (.message message)⟩]) =
          .posted (g.behindWifi e wifi (.message message)).packet := by
      rw [permitOf_concat, next_of_unhandled rfl, if_neg (not_prompts kept), if_pos queues, packet]
      rcases before.ready isReady with prompted | posted
      · rw [prompted]
        rfl
      · rw [posted]
        rfl
    refine ⟨?_, fun _ => .inr permit, fun _ _ _ => permit, ?_⟩
    · rw [kept, isReady]
      intro asked
      cases asked
    · have none_ : g.networkManagerMq.items.countP (fun message => Ready site message) = 0 := by
        rw [List.countP_eq_zero]
        exact fun m member ready => noneReady m member (of_decide_eq_true ready)
      rw [items]
      split
      · rw [List.countP_append, none_, Nat.zero_add]
        exact List.countP_le_length
      · rw [none_]
        exact Nat.zero_le 1
  · have notReady (room : g.networkManagerMq.items.length < networkmanagerMqSize) :
        ¬ Ready site message :=
      fun ready => queues ⟨message, by rw [queued, if_pos room], ready⟩
    refine before.keep (next_of_kept rfl (not_prompts kept) queues) packet (.inl kept) ?_ ?_
    · intro m member ready
      rw [items] at member
      split at member
      · rename_i room
        exact mem_of_ready_append (notReady room) member ready
      · exact member
    · rw [items]
      split
      · rename_i room
        exact Nat.le_of_eq (countP_ready_append (notReady room))
      · exact le_rfl

end Wifi

/-! ### A turn of the PLC thread -/

/-- The PLC thread queues a packet at most. -/
theorem items_behindPlc (g : Gateway) (t : Plc.PlcThread) (made : Option Plc.Packetised) :
    (g.behindPlc t made).networkManagerMq.items = g.networkManagerMq.items ∨
      ∃ packet, (g.behindPlc t made).networkManagerMq.items =
        g.networkManagerMq.items ++ [packetMessage packet] := by
  unfold Gateway.behindPlc
  split
  · exact .inl rfl
  · rw [Gateway.items_sendData]
    split
    · exact .inr ⟨_, rfl⟩
    · exact .inl rfl

theorem permitted_plc {site : Site} {past : List GatewayTransition} {g : Gateway} {rx : Bool}
    {reads : List (List UInt8)} {o : Unit} {t : Plc.PlcThread} {made : Option Plc.Packetised}
    (before : Permitted site past g) :
    Permitted site (past ++ [⟨g, .plc rx reads, o, g.behindPlc t made⟩]) (g.behindPlc t made) := by
  have kept : (g.behindPlc t made).wifi.wifi.networkInfoData.networkStatus =
      g.wifi.wifi.networkInfoData.networkStatus := by rw [Gateway.wifi_behindPlc]
  have quiet : ¬ QueuesReady site ⟨g, .plc rx reads, o, g.behindPlc t made⟩ := by
    rintro ⟨message, queued, -⟩
    cases queued
  have notReady (packet : List UInt8) : ¬ Ready site (packetMessage packet) := by
    rintro ⟨ok | error, -⟩
    · cases ok
    · cases error
  refine before.keep (next_of_kept rfl (not_prompts kept) quiet) (packet_behindPlc g t made)
    (.inl kept) ?_ ?_
  · intro message member ready
    rcases items_behindPlc g t made with same | ⟨packet, more⟩
    · rwa [same] at member
    · rw [more] at member
      exact mem_of_ready_append (notReady packet) member ready
  · rcases items_behindPlc g t made with same | ⟨packet, more⟩
    · rw [same]
    · rw [more]
      exact Nat.le_of_eq (countP_ready_append (notReady packet))

/-! ### A message that is handled -/

theorem Reaction.announces_ne_readyToSendData (r : Reaction) :
    r.announces ≠ some .readyToSendData := by
  cases r with
  | command id => cases id <;> simp [announces, commandStatus]
  | _ => simp [announces]

theorem Reaction.announces_setSendDataLength {r : Reaction}
    (asks : r.announces = some .setSendDataLength) : r = .setDataLength := by
  cases r with
  | command id => cases id <;> simp [announces, commandStatus] at asks
  | setDataLength => rfl
  | _ => simp [announces] at asks

section Handle

variable {site : Site} {past : List GatewayTransition} {g : Gateway} {o : Unit} {message : MqData}
  {queue : Fifo MqData networkmanagerMqSize}

/-- The gateway behind a message that is handled. -/
abbrev behindMessage (site : Site) (g : Gateway) (queue : Fifo MqData networkmanagerMqSize)
    (message : MqData) : Gateway :=
  Gateway.handle site { g with networkManagerMq := queue } message

theorem reactionIn_handle (site : Site) (popped : g.networkManagerMq.pop = some (message, queue)) :
    reactionIn site ⟨g, .handle, o, behindMessage site g queue message⟩ =
      some (g.reactionTo site message) := by
  rw [reactionIn, handledIn_handle popped, Option.map_some]

theorem wifiStatus_behindMessage :
    (behindMessage site g queue message).wifi.wifi.networkInfoData.networkStatus =
      (g.reactionTo site message).announces.getD g.wifi.wifi.networkInfoData.networkStatus :=
  Gateway.wifiStatus_handle site { g with networkManagerMq := queue } message

theorem items_behindMessage (site : Site) (popped : g.networkManagerMq.pop = some (message, queue)) :
    g.networkManagerMq.items =
      message :: (behindMessage site g queue message).networkManagerMq.items := by
  rw [Gateway.networkManagerMq_handle]
  exact Fifo.items_of_pop popped

/-- A new packet is taken over. -/
theorem permitted_takesOver (popped : g.networkManagerMq.pop = some (message, queue))
    (takesOver : g.reactionTo site message = .setDataLength) (noneReady : NoneReady site g)
    (before : Permitted site past g) :
    Permitted site (past ++ [⟨g, .handle, o, behindMessage site g queue message⟩])
      (behindMessage site g queue message) := by
  have items := items_behindMessage site popped
  have permit : permitOf site (past ++ [⟨g, .handle, o, behindMessage site g queue message⟩]) =
      .asked (behindMessage site g queue message).packet := by
    rw [permitOf_concat, Permit.next, reactionIn_handle site popped, takesOver, if_pos rfl]
  refine ⟨fun _ => permit, ?_, ?_, ?_⟩
  · rw [wifiStatus_behindMessage, takesOver]
    intro ready
    cases ready
  · intro m member ready
    exact absurd ready (noneReady m (by rw [items]; exact List.mem_cons_of_mem _ member))
  · have once := before.once
    rw [items, List.countP_cons] at once
    exact (Nat.le_add_right _ _).trans once

/-- What a prompt has been given for is sent, and the prompt is used up. -/
theorem permitted_sends (popped : g.networkManagerMq.pop = some (message, queue))
    (sends : g.reactionTo site message = .sendData) (ready : Ready site message)
    (before : Permitted site past g) :
    Permitted site (past ++ [⟨g, .handle, o, behindMessage site g queue message⟩])
      (behindMessage site g queue message) := by
  have items := items_behindMessage site popped
  have once := before.once
  rw [items, List.countP_cons_of_pos (by simpa using ready)] at once
  have noneLeft := List.countP_eq_zero.mp (Nat.le_zero.mp (Nat.le_of_succ_le_succ once))
  refine ⟨?_, ?_, ?_, (Nat.le_succ _).trans once⟩
  · rw [wifiStatus_behindMessage, sends]
    intro asked
    cases asked
  · rw [wifiStatus_behindMessage, sends]
    intro prompted
    cases prompted
  · intro m member isReady
    exact absurd (decide_eq_true isReady) (noneLeft m member)

/-- Anything else that is done about a message. -/
theorem permitted_other (popped : g.networkManagerMq.pop = some (message, queue))
    (notTaken : g.reactionTo site message ≠ .setDataLength)
    (notSent : g.reactionTo site message ≠ .sendData)
    (notResent : g.reactionTo site message ≠ .resend) (before : Permitted site past g) :
    Permitted site (past ++ [⟨g, .handle, o, behindMessage site g queue message⟩])
      (behindMessage site g queue message) := by
  have items := items_behindMessage site popped
  have reacts := reactionIn_handle (o := o) site popped
  have quiet : ¬ QueuesReady site ⟨g, .handle, o, behindMessage site g queue message⟩ := by
    rintro ⟨m, queued, -⟩
    cases queued
  have status : (behindMessage site g queue message).wifi.wifi.networkInfoData.networkStatus =
      g.wifi.wifi.networkInfoData.networkStatus ∨
      ((behindMessage site g queue message).wifi.wifi.networkInfoData.networkStatus ≠
          .setSendDataLength ∧
        (behindMessage site g queue message).wifi.wifi.networkInfoData.networkStatus ≠
          .readyToSendData) := by
    rw [wifiStatus_behindMessage]
    cases announced : (g.reactionTo site message).announces with
    | none => exact .inl rfl
    | some status =>
        refine .inr ⟨?_, ?_⟩
        · rintro rfl
          exact notTaken (Reaction.announces_setSendDataLength announced)
        · rintro rfl
          exact Reaction.announces_ne_readyToSendData _ announced
  have still : ¬ Prompts ⟨g, .handle, o, behindMessage site g queue message⟩ := by
    rcases status with kept | ⟨-, other⟩
    · exact not_prompts kept
    · exact fun prompts => other prompts.2
  have permit : (permitOf site past).next site
      ⟨g, .handle, o, behindMessage site g queue message⟩ = permitOf site past := by
    rw [Permit.next, if_neg (by rw [reacts]; simpa using notTaken),
      if_neg (by rw [Sends, reacts]; simpa using ⟨notSent, notResent⟩), if_neg still, if_neg quiet]
  refine before.keep permit ?_ status ?_ ?_
  · obtain ⟨buffer, length⟩ :=
      Gateway.packet_handle site { g with networkManagerMq := queue } message notTaken
    simp only [Gateway.packet, buffer, length]
  · intro m member _
    rw [items]
    exact List.mem_cons_of_mem _ member
  · rw [items, List.countP_cons]
    exact Nat.le_add_right _ _

/-- A message that makes the manager send says that the module is ready, unless a packet was
refused. -/
theorem ready_of_sends (sends : g.reactionTo site message = .sendData) : Ready site message := by
  have leads := Gateway.reactionTo_leads site g message
  rw [sends] at leads
  cases leads with
  | prompted code ready => exact ⟨.inl code, ready⟩
  | failedReady code ready => exact ⟨.inr code, ready⟩

theorem permitted_handle (popped : g.networkManagerMq.pop = some (message, queue))
    (orderly : Orderly site ⟨g, .handle, o, behindMessage site g queue message⟩)
    (before : Permitted site past g) :
    Permitted site (past ++ [⟨g, .handle, o, behindMessage site g queue message⟩])
      (behindMessage site g queue message) := by
  have reacts := reactionIn_handle (o := o) site popped
  by_cases takesOver : g.reactionTo site message = .setDataLength
  · exact permitted_takesOver popped takesOver (orderly.takesOver (by rw [reacts, takesOver]))
      before
  · by_cases sends : g.reactionTo site message = .sendData
    · exact permitted_sends popped sends (ready_of_sends sends) before
    · refine permitted_other popped takesOver sends ?_ before
      intro resends
      exact orderly.refused (by rw [reacts, resends])

end Handle

/-- **An orderly step permits what its state says.** -/
theorem Permitted.step {site : Site} {past : List GatewayTransition} {τ : GatewayTransition}
    (takes : (gateway site).Takes τ) (orderly : Orderly site τ)
    (before : Permitted site past τ.source) : Permitted site (past ++ [τ]) τ.target := by
  obtain ⟨g, e, o, g'⟩ := τ
  have step : GatewayStep site g e g' := (gateway_cases takes).2
  cases step with
  | @wifi e wifi output step own =>
      by_cases silent : ∀ message, output ≠ .message message
      · exact permitted_silent step own silent before
      · obtain ⟨message, rfl⟩ := not_forall_not.mp silent
        exact permitted_message step orderly before
  | plc => exact permitted_plc before
  | handle popped => exact permitted_handle popped orderly before
  | responseTimeout =>
      refine before.keep (next_of_kept rfl (not_prompts rfl) ?_) rfl (.inl rfl)
        (fun _ member _ => member) le_rfl
      rintro ⟨message, queued, -⟩
      cases queued

/-- What is sent in an orderly step is sent in turn. -/
theorem Permitted.inTurn {site : Site} {past : List GatewayTransition} {τ : GatewayTransition}
    (takes : (gateway site).Takes τ) (orderly : Orderly site τ)
    (before : Permitted site past τ.source) (sends : Sends site τ) : InTurn site past τ := by
  obtain sends | resends := sends
  · obtain ⟨message, handled, decided⟩ := Option.map_eq_some_iff.mp sends
    obtain ⟨queue, items, -⟩ := handle_of_handledIn takes handled
    have ready := ready_of_sends decided
    have member : message ∈ τ.source.networkManagerMq.items := by
      rw [items]
      exact List.mem_cons_self
    exact ⟨⟨message, handled, ready.2⟩, before.queue message member ready⟩
  · exact absurd resends orderly.refused

/-! ## A run -/

/-- A run of `gateway`, whose messages are handled as they were sent. -/
theorem sendsPrompted_of_orderly {site : Site} {first last : Gateway}
    {taken : List GatewayTransition} (starts : Starts first)
    (run : (gateway site).Run first taken last) (orderly : ∀ τ ∈ taken, Orderly site τ) :
    SendsPrompted site taken := by
  obtain ⟨-, along⟩ := run.history (Permitted site) starts.permitted
    (fun _ _ takes here before => before.step takes here) orderly
  intro past τ rest split sends
  have member : τ ∈ taken := by
    rw [split]
    simp
  exact (along past τ rest split).inTurn (run.takes τ member) (orderly τ member) sends

/-- The module prompts for a packet and gets it. -/
def packetGiven : List GatewayEvent :=
  connecting ++ [frameArrives, .handle] ++ exchanged [lineOf "OK", lineOf ">"] ++
    [.wifi .post, .wifi .recv, .wifi .act, .wifi .finish]

/-- The same when the module is silent: the timer for the server's answer posts the last message
once more, as an error, and the manager takes it for a prompt. -/
theorem unanswered_packet_is_sent_raw : ∃ taken last,
    (pointerGateway someSite).Run (startPointerGateway someSite) taken last ∧
      (∀ τ ∈ taken, Intact τ) ∧ ¬ SendsPrompted someSite (gatewaySteps taken) := by
  obtain ⟨taken, last, run, passed⟩ := (pointerGateway someSite).exists_run_of_passes
    (startPointerGateway someSite) (threads (packetGiven ++ [.wifi .sendTimeout, .handle]))
    (fun taken _ => (∀ τ ∈ taken, Intact τ) ∧ ¬ SendsPrompted someSite (gatewaySteps taken))
    (by decide +kernel)
  exact ⟨taken, last, run, of_decide_eq_true passed⟩

/-- The module answers the length of a packet with `OK` and its prompt, in reads of their own,
before the manager runs. -/
def promptsEarly : List GatewayEvent :=
  [.wifi .post, .wifi .recv, .wifi .act, .wifi .finish] ++
    (answered [lineOf "OK"]).dropLast ++ (answered [lineOf ">"]).dropLast

/-- **One prompt is used twice.** The prompt is written over the `OK` ahead of it, and the manager
handles it twice. Every step is orderly. -/
theorem overwritten_answer_sends_twice : ∃ taken last,
    (pointerGateway someSite).Run (startPointerGateway someSite) taken last ∧
      (∀ τ ∈ gatewaySteps taken, Orderly someSite τ) ∧
      ¬ SendsPrompted someSite (gatewaySteps taken) := by
  obtain ⟨taken, last, run, passed⟩ := (pointerGateway someSite).exists_run_of_passes
    (startPointerGateway someSite)
    (threads (connecting ++ [frameArrives, .handle] ++ promptsEarly ++
      [.handle, .wifi .post, .handle]))
    (fun taken _ => (∀ τ ∈ gatewaySteps taken, Orderly someSite τ) ∧
      ¬ SendsPrompted someSite (gatewaySteps taken)) (by decide +kernel)
  exact ⟨taken, last, run, of_decide_eq_true passed⟩

end WhaleShark

import WhaleShark.Foundations.Fifo
import WhaleShark.Foundations.Ledgers
import WhaleShark.Gateway.WifiThread

/-!
# Messages to the network manager

`NetworkMangerSendMessage` queues a pointer. `WifiRxThread` and the two timers all send
`wifiInfo.mqData`, which they fill in first, each at its own time; `SendData` sends a local variable
and returns. `NetworkManagerThread` takes a pointer from the queue, copies what it points to, and
dispatches the copy.

A message is the contents of its cell when it was accepted. It is in flight until it is dispatched,
and until it is copied it is what its cell holds. So the ledger of messages is exact throughout
a run exactly if nobody writes another value into what a pointer in flight still refers to
(`messages_are_intact_iff`). The firmware does not see to it: in `messages_are_altered` a second
answer is written over the first, and the frame of `SendData` is gone when its pointer is taken.
-/

set_option autoImplicit false

namespace WhaleShark.Network

open Foundations

/-- The addresses that are queued: `&wifiInfo.mqData`, and that of the local `data` of `SendData`,
which has one caller. -/
inductive Pointer where
  | wifiMqData
  | sendDataFrame
  deriving DecidableEq, Repr

/-- Those that send `wifiInfo.mqData`. -/
inductive Sender where
  | wifiRxThread
  | wifiTimeoutTimer
  | sendTimeoutTimer
  deriving DecidableEq, Repr

/-- How far a sender is: it has set the message code, and copied the network status. -/
inductive Stage where
  | idle
  | named
  | copied
  deriving DecidableEq, Repr

/-- How far `SendData` is. -/
inductive Frame where
  | gone
  | headed
  | filled
  | sent
  deriving DecidableEq, Repr

/-- How far `NetworkManagerThread` is: it waits, has a pointer, has copied the message code and the
size, has copied everything. -/
inductive Copying where
  | waiting
  | taken (p : Pointer)
  | headed (p : Pointer) (messge : Smsg) (size : ℕ)
  | copied (message : MqData)

/-- The cells, the queue, and everyone who writes or reads them. -/
structure MessagePath where
  mqData : MqData
  frame : MqData
  queue : Fifo Pointer networkmanagerMqSize
  stage : Sender → Stage
  sendData : Frame
  manager : Copying

inductive MessageEvent where
  /-- `mqData.messge = messge` -/
  | name (s : Sender) (messge : Smsg)
  /-- `rt_memcpy(mqData.data, &networkInfoData, mqData.size = sizeof(networkInfoData.data))` -/
  | copy (s : Sender) (info : NetworkInfoData)
  /-- `NetworkMangerSendMessage(&mqData)` -/
  | send (s : Sender)
  /-- `SendData` is entered and sets the message code and the size -/
  | enter (size : ℕ)
  /-- `rt_memcpy(data.data, pData, dataSize)` -/
  | fill (bytes : List UInt8)
  /-- `NetworkMangerSendMessage(&data)` -/
  | sendFrame
  /-- `SendData` returns -/
  | leave
  /-- the memory of a frame that is gone is used for something else -/
  | reuse (contents : MqData)
  /-- `rt_mq_recv` -/
  | recv
  /-- `rt_memcpy(&mqData, pMqData, sizeof(mqData))`, the message code and the size -/
  | copyHeader
  /-- and the data -/
  | copyData
  /-- `switch(mqData.messge)` -/
  | dispatch

inductive MessageOutput where
  | nothing
  /-- the contents of the cell whose pointer was queued -/
  | accepted (message : MqData)
  /-- `-RT_EFULL` -/
  | rejected
  | dispatched (message : MqData)
  deriving DecidableEq

/-! ## The steps -/

/-- The message codes that a sender sets. -/
def Sender.names : Sender → Smsg → Bool
  | .wifiRxThread, messge => messge = .wifiOk || messge = .wifiError || messge = .wifiFail
  | .wifiTimeoutTimer, messge => messge = .wifiTimeout
  | .sendTimeoutTimer, messge => messge = .wifiError

/-- `SendTimeoutTimer` does not copy the network status. -/
def Sender.copies : Sender → Bool
  | .sendTimeoutTimer => false
  | _ => true

/-- Where a sender stands when it sends. -/
def Sender.ready (s : Sender) : Stage := if s.copies then .copied else .named

/-- What a pointer points to. -/
def MessagePath.deref (t : MessagePath) : Pointer → MqData
  | .wifiMqData => t.mqData
  | .sendDataFrame => t.frame

/-- `NetworkMangerSendMessage` -/
def networkMangerSendMessage (t : MessagePath) (p : Pointer) : MessagePath × MessageOutput :=
  match t.queue.push p with
  | none => (t, .rejected)
  | some queue => ({ t with queue := queue }, .accepted (t.deref p))

/-- The producers, the queue and the consumer. -/
def messagePath : Machine MessagePath MessageEvent MessageOutput where
  step t
    | .name s messge =>
        if t.stage s = .idle ∧ s.names messge then
          some ({ t with
            mqData := { t.mqData with messge := messge }
            stage := Function.update t.stage s .named }, .nothing)
        else none
    | .copy s info =>
        if t.stage s = .named ∧ s.copies then
          some ({ t with
            mqData := { t.mqData with size := sizeofData, data := .networkInfo info }
            stage := Function.update t.stage s .copied }, .nothing)
        else none
    | .send s =>
        if t.stage s = s.ready then
          some (networkMangerSendMessage { t with stage := Function.update t.stage s .idle }
            .wifiMqData)
        else none
    | .enter size =>
        if t.sendData = .gone then
          some ({ t with
            frame := { t.frame with messge := .tcpSendData, size := size }
            sendData := .headed }, .nothing)
        else none
    | .fill bytes =>
        if t.sendData = .headed ∧ bytes.length = t.frame.size then
          some ({ t with
            frame := { t.frame with data := .packets bytes }
            sendData := .filled }, .nothing)
        else none
    | .sendFrame =>
        if t.sendData = .filled then
          some (networkMangerSendMessage { t with sendData := .sent } .sendDataFrame)
        else none
    | .leave =>
        if t.sendData = .sent then some ({ t with sendData := .gone }, .nothing) else none
    | .reuse contents =>
        if t.sendData = .gone then some ({ t with frame := contents }, .nothing) else none
    | .recv =>
        match t.manager, t.queue.pop with
        | .waiting, some (p, queue) =>
            some ({ t with queue := queue, manager := .taken p }, .nothing)
        | _, _ => none
    | .copyHeader =>
        match t.manager with
        | .taken p =>
            some ({ t with manager := .headed p (t.deref p).messge (t.deref p).size }, .nothing)
        | _ => none
    | .copyData =>
        match t.manager with
        | .headed p messge size =>
            some ({ t with manager := .copied ⟨messge, size, (t.deref p).data⟩ }, .nothing)
        | _ => none
    | .dispatch =>
        match t.manager with
        | .copied message => some ({ t with manager := .waiting }, .dispatched message)
        | _ => none

abbrev MessageTransition := Transition MessagePath MessageEvent MessageOutput

/-! ## What a step can do -/

/-- The steps: a sender names its message, copies the data and sends it; `SendData` is called,
fills its frame, sends it and returns, and its memory is reused; the manager takes a pointer,
copies what it points to in two goes, and dispatches. -/
inductive MessageStep (t : MessagePath) : MessageEvent → MessagePath → MessageOutput → Prop where
  | name {s : Sender} {messge : Smsg} (idle : t.stage s = .idle) (names : s.names messge = true) :
      MessageStep t (.name s messge)
        { t with
          mqData := { t.mqData with messge := messge }
          stage := Function.update t.stage s .named } .nothing
  | copy {s : Sender} {info : NetworkInfoData} (named : t.stage s = .named)
      (copies : s.copies = true) :
      MessageStep t (.copy s info)
        { t with
          mqData := { t.mqData with size := sizeofData, data := .networkInfo info }
          stage := Function.update t.stage s .copied } .nothing
  | send {s : Sender} {t' : MessagePath} {o : MessageOutput} (ready : t.stage s = s.ready)
      (sent : networkMangerSendMessage { t with stage := Function.update t.stage s .idle }
        .wifiMqData = (t', o)) : MessageStep t (.send s) t' o
  | enter {size : ℕ} (gone : t.sendData = .gone) :
      MessageStep t (.enter size)
        { t with
          frame := { t.frame with messge := .tcpSendData, size := size }
          sendData := .headed } .nothing
  | fill {bytes : List UInt8} (headed : t.sendData = .headed)
      (whole : bytes.length = t.frame.size) :
      MessageStep t (.fill bytes)
        { t with frame := { t.frame with data := .packets bytes }, sendData := .filled } .nothing
  | sendFrame {t' : MessagePath} {o : MessageOutput} (filled : t.sendData = .filled)
      (sent : networkMangerSendMessage { t with sendData := .sent } .sendDataFrame = (t', o)) :
      MessageStep t .sendFrame t' o
  | leave (sent : t.sendData = .sent) :
      MessageStep t .leave { t with sendData := .gone } .nothing
  | reuse {contents : MqData} (gone : t.sendData = .gone) :
      MessageStep t (.reuse contents) { t with frame := contents } .nothing
  | recv {p : Pointer} {queue : Fifo Pointer networkmanagerMqSize} (waits : t.manager = .waiting)
      (popped : t.queue.pop = some (p, queue)) :
      MessageStep t .recv { t with queue := queue, manager := .taken p } .nothing
  | copyHeader {p : Pointer} (taken : t.manager = .taken p) :
      MessageStep t .copyHeader
        { t with manager := .headed p (t.deref p).messge (t.deref p).size } .nothing
  | copyData {p : Pointer} {messge : Smsg} {size : ℕ} (headed : t.manager = .headed p messge size) :
      MessageStep t .copyData
        { t with manager := .copied ⟨messge, size, (t.deref p).data⟩ } .nothing
  | dispatch {message : MqData} (copied : t.manager = .copied message) :
      MessageStep t .dispatch { t with manager := .waiting } (.dispatched message)

/-- Every step of the machine is one of these. -/
theorem messagePath_cases {t t' : MessagePath} {e : MessageEvent} {o : MessageOutput}
    (step : messagePath.step t e = some (t', o)) : MessageStep t e t' o := by
  cases e with
  | name s messge =>
      obtain ⟨⟨idle, names⟩, same⟩ := Option.ite_none_right_eq_some.mp step
      cases same
      exact .name idle names
  | copy s info =>
      obtain ⟨⟨named, copies⟩, same⟩ := Option.ite_none_right_eq_some.mp step
      cases same
      exact .copy named copies
  | send s =>
      obtain ⟨ready, sent⟩ := Option.ite_none_right_eq_some.mp step
      exact .send ready (Option.some.inj sent)
  | enter size =>
      obtain ⟨gone, same⟩ := Option.ite_none_right_eq_some.mp step
      cases same
      exact .enter gone
  | fill bytes =>
      obtain ⟨⟨headed, whole⟩, same⟩ := Option.ite_none_right_eq_some.mp step
      cases same
      exact .fill headed whole
  | sendFrame =>
      obtain ⟨filled, sent⟩ := Option.ite_none_right_eq_some.mp step
      exact .sendFrame filled (Option.some.inj sent)
  | leave =>
      obtain ⟨sent, same⟩ := Option.ite_none_right_eq_some.mp step
      cases same
      exact .leave sent
  | reuse contents =>
      obtain ⟨gone, same⟩ := Option.ite_none_right_eq_some.mp step
      cases same
      exact .reuse gone
  | recv =>
      simp only [messagePath] at step
      split at step
      · rename_i p queue waits popped
        cases step
        exact .recv waits popped
      · cases step
  | copyHeader =>
      simp only [messagePath] at step
      split at step
      · rename_i p taken
        cases step
        exact .copyHeader taken
      · cases step
  | copyData =>
      simp only [messagePath] at step
      split at step
      · rename_i p messge size headed
        cases step
        exact .copyData headed
      · cases step
  | dispatch =>
      simp only [messagePath] at step
      split at step
      · rename_i message copied
        cases step
        exact .dispatch copied
      · cases step

/-! ## Messages in flight -/

/-- What the manager has taken and not yet dispatched. -/
def MessagePath.carried (t : MessagePath) : List MqData :=
  match t.manager with
  | .waiting => []
  | .taken p => [t.deref p]
  | .headed p messge size => [⟨messge, size, (t.deref p).data⟩]
  | .copied message => [message]

/-- The messages that were accepted and not yet dispatched, the oldest one first. -/
def MessagePath.inFlight (t : MessagePath) : List MqData := t.carried ++ t.queue.items.map t.deref

/-- The message that a step brings into the queue. -/
def acceptedMessage (τ : MessageTransition) : Option MqData :=
  match τ.output with
  | .accepted message => some message
  | _ => none

/-- The message that a step dispatches. -/
def dispatchedMessage (τ : MessageTransition) : Option MqData :=
  match τ.output with
  | .dispatched message => some message
  | _ => none

/-- The messages: a sender has them accepted, the manager dispatches them. -/
def messages : Machine.Ledger MessagePath MessageEvent MessageOutput MqData where
  enters := acceptedMessage
  leaves := dispatchedMessage
  inside := MessagePath.inFlight

/-- The pointer that the manager has taken and copied nothing of. -/
def Copying.whole : Copying → List Pointer
  | .taken p => [p]
  | _ => []

/-- The pointer that the manager has taken and not copied the data of. -/
def Copying.open_ : Copying → List Pointer
  | .taken p => [p]
  | .headed p _ _ => [p]
  | _ => []

/-- The message code and the size of this cell will still be copied. -/
def MessagePath.headAwaited (t : MessagePath) (p : Pointer) : Prop :=
  p ∈ t.manager.whole ++ t.queue.items

/-- The data of this cell will still be copied. -/
def MessagePath.dataAwaited (t : MessagePath) (p : Pointer) : Prop :=
  p ∈ t.manager.open_ ++ t.queue.items

instance (t : MessagePath) (p : Pointer) : Decidable (t.headAwaited p) :=
  inferInstanceAs (Decidable (_ ∈ _))

instance (t : MessagePath) (p : Pointer) : Decidable (t.dataAwaited p) :=
  inferInstanceAs (Decidable (_ ∈ _))

/-- The step writes nothing new into what will still be copied. -/
def Undisturbed (τ : MessageTransition) : Prop :=
  match τ.event with
  | .name _ messge => τ.source.headAwaited .wifiMqData → messge = τ.source.mqData.messge
  | .copy _ info =>
      (τ.source.headAwaited .wifiMqData → sizeofData = τ.source.mqData.size) ∧
        (τ.source.dataAwaited .wifiMqData → .networkInfo info = τ.source.mqData.data)
  | .enter size =>
      τ.source.headAwaited .sendDataFrame →
        .tcpSendData = τ.source.frame.messge ∧ size = τ.source.frame.size
  | .fill bytes => τ.source.dataAwaited .sendDataFrame → .packets bytes = τ.source.frame.data
  | .reuse contents =>
      (τ.source.headAwaited .sendDataFrame →
        contents.messge = τ.source.frame.messge ∧ contents.size = τ.source.frame.size) ∧
        (τ.source.dataAwaited .sendDataFrame → contents.data = τ.source.frame.data)
  | _ => True

instance (τ : MessageTransition) : Decidable (Undisturbed τ) := by
  unfold Undisturbed
  split <;> infer_instance

/-! ## One step -/

theorem MqData.eq_iff (a b : MqData) :
    a = b ↔ (a.messge = b.messge ∧ a.size = b.size) ∧ a.data = b.data := by
  cases a
  cases b
  simp [and_assoc]

/-- What the manager carries is the same exactly if what it will still copy is the same. -/
theorem carried_eq_iff {t t' : MessagePath} (manager : t'.manager = t.manager) :
    t'.carried = t.carried ↔
      (∀ p ∈ t.manager.whole, (t'.deref p).messge = (t.deref p).messge ∧
          (t'.deref p).size = (t.deref p).size) ∧
        ∀ p ∈ t.manager.open_, (t'.deref p).data = (t.deref p).data := by
  unfold MessagePath.carried
  rw [manager]
  cases t.manager with
  | waiting => simp [Copying.whole, Copying.open_]
  | taken p => simp [Copying.whole, Copying.open_, MqData.eq_iff]
  | headed p messge size => simp [Copying.whole, Copying.open_]
  | copied message => simp [Copying.whole, Copying.open_]

/-- With the same pointers in flight, the same messages are in flight exactly if what will still be
copied is the same. -/
theorem inFlight_eq_iff {t t' : MessagePath} (queue : t'.queue = t.queue)
    (manager : t'.manager = t.manager) :
    t'.inFlight = t.inFlight ↔
      ∀ p, (t.headAwaited p → (t'.deref p).messge = (t.deref p).messge ∧
          (t'.deref p).size = (t.deref p).size) ∧
        (t.dataAwaited p → (t'.deref p).data = (t.deref p).data) := by
  have parts : t'.inFlight = t.inFlight ↔ t'.carried = t.carried ∧
      t'.queue.items.map t'.deref = t.queue.items.map t.deref := by
    constructor
    · intro same
      exact List.append_inj' same (by simp [queue])
    · rintro ⟨carried, queued⟩
      rw [MessagePath.inFlight, MessagePath.inFlight, carried, queued]
  rw [parts, carried_eq_iff manager, queue, List.map_inj_left]
  simp only [MessagePath.headAwaited, MessagePath.dataAwaited, List.mem_append, or_imp,
    forall_and, MqData.eq_iff]
  tauto

/-- A write into `wifiInfo.mqData`. -/
theorem inFlight_write_mqData {t t' : MessagePath} (queue : t'.queue = t.queue)
    (manager : t'.manager = t.manager) (frame : t'.frame = t.frame) :
    t'.inFlight = t.inFlight ↔
      (t.headAwaited .wifiMqData →
        t'.mqData.messge = t.mqData.messge ∧ t'.mqData.size = t.mqData.size) ∧
        (t.dataAwaited .wifiMqData → t'.mqData.data = t.mqData.data) := by
  rw [inFlight_eq_iff queue manager]
  constructor
  · exact fun all => all .wifiMqData
  · rintro here (_ | _)
    · exact here
    · simp [MessagePath.deref, frame]

/-- A write into the frame of `SendData`. -/
theorem inFlight_write_frame {t t' : MessagePath} (queue : t'.queue = t.queue)
    (manager : t'.manager = t.manager) (mqData : t'.mqData = t.mqData) :
    t'.inFlight = t.inFlight ↔
      (t.headAwaited .sendDataFrame →
        t'.frame.messge = t.frame.messge ∧ t'.frame.size = t.frame.size) ∧
        (t.dataAwaited .sendDataFrame → t'.frame.data = t.frame.data) := by
  rw [inFlight_eq_iff queue manager]
  constructor
  · exact fun all => all .sendDataFrame
  · rintro here (_ | _)
    · simp [MessagePath.deref, mqData]
    · exact here

/-- A message that is accepted is in flight behind the others; one that is rejected is not. -/
theorem balanced_send {t t' t'' : MessagePath} {e : MessageEvent} {o : MessageOutput} (p : Pointer)
    (send : networkMangerSendMessage t' p = (t'', o)) (same : t'.inFlight = t.inFlight) :
    messages.Balanced ⟨t, e, o, t''⟩ := by
  unfold networkMangerSendMessage at send
  cases pushed : t'.queue.push p with
  | none =>
      rw [pushed] at send
      cases send
      exact (Machine.Ledger.balanced_of_same (L := messages) rfl rfl).mpr same
  | some queue =>
      rw [pushed] at send
      cases send
      have added : ({ t' with queue := queue } : MessagePath).inFlight =
          t'.inFlight ++ [t'.deref p] := by
        have items := Fifo.items_of_push pushed
        simp only [MessagePath.inFlight, items, List.map_append, ← List.append_assoc]
        rfl
      refine (Machine.Ledger.balanced_of_enters (L := messages) rfl rfl).mpr ?_
      exact added.trans (congrArg (· ++ [t'.deref p]) same)

/-- **One step.** A step keeps the ledger exactly if it disturbs nothing in flight. -/
theorem message_balanced_iff {τ : MessageTransition} (takes : messagePath.Takes τ) :
    messages.Balanced τ ↔ Undisturbed τ := by
  obtain ⟨t, e, o, t'⟩ := τ
  have step : MessageStep t e t' o := messagePath_cases takes
  have kept (enters : acceptedMessage ⟨t, e, o, t'⟩ = none)
      (leaves : dispatchedMessage ⟨t, e, o, t'⟩ = none) :
      messages.Balanced ⟨t, e, o, t'⟩ ↔ t'.inFlight = t.inFlight :=
    Machine.Ledger.balanced_of_same (L := messages) enters leaves
  cases step with
  | name =>
      refine (kept rfl rfl).trans ((inFlight_write_mqData (by rfl) (by rfl) (by rfl)).trans ?_)
      simp [Undisturbed]
  | copy =>
      refine (kept rfl rfl).trans ((inFlight_write_mqData (by rfl) (by rfl) (by rfl)).trans ?_)
      simp [Undisturbed]
  | enter =>
      refine (kept rfl rfl).trans ((inFlight_write_frame (by rfl) (by rfl) (by rfl)).trans ?_)
      simp [Undisturbed]
  | fill =>
      refine (kept rfl rfl).trans ((inFlight_write_frame (by rfl) (by rfl) (by rfl)).trans ?_)
      simp [Undisturbed]
  | reuse => exact (kept rfl rfl).trans (inFlight_write_frame (by rfl) (by rfl) (by rfl))
  | send _ sent => exact iff_of_true (balanced_send _ sent rfl) trivial
  | sendFrame _ sent => exact iff_of_true (balanced_send _ sent rfl) trivial
  | leave => exact iff_of_true ((kept rfl rfl).mpr rfl) trivial
  | recv waits popped =>
      refine iff_of_true ((kept rfl rfl).mpr ?_) trivial
      have items := Fifo.items_of_pop popped
      simp only [MessagePath.inFlight, MessagePath.carried, waits, items, List.map_cons]
      rfl
  | copyHeader taken =>
      refine iff_of_true ((kept rfl rfl).mpr ?_) trivial
      simp only [MessagePath.inFlight, MessagePath.carried, taken]
      rfl
  | copyData headed =>
      refine iff_of_true ((kept rfl rfl).mpr ?_) trivial
      simp only [MessagePath.inFlight, MessagePath.carried, headed]
      rfl
  | dispatch copied =>
      refine iff_of_true
        ((Machine.Ledger.balanced_of_leaves (L := messages) rfl rfl).mpr ?_) trivial
      change t.inFlight = _
      simp only [MessagePath.inFlight, MessagePath.carried, copied]
      rfl

/-! ## Whole runs -/

/-- **Every message is dispatched as it was accepted, once and in order, exactly while nothing in
flight is disturbed.** -/
theorem messages_are_intact_iff {first last : MessagePath} {taken : List MessageTransition}
    (run : messagePath.Run first taken last) (empty : first.inFlight = []) :
    Machine.Throughout messages.Exact taken last ↔ ∀ τ ∈ taken, Undisturbed τ :=
  run.ledger_iff messages (fun _ => True) Undisturbed empty trivial
    (fun _ takes _ => message_balanced_iff takes) (fun _ _ _ _ => trivial)

/-- Before the first message. -/
def startMessages : MessagePath where
  mqData := initWifi.mqData
  frame := ⟨.wifiOk, 0, .packets []⟩
  queue := .empty Pointer networkmanagerMqSize
  stage := fun _ => .idle
  sendData := .gone
  manager := .waiting

/-- What is copied for a command with this status. -/
def infoOf (networkStatus : NetworkStatus) : NetworkInfoData :=
  ⟨.responseMax, networkStatus, .fill 128 0⟩

/-- The message of an answer to a command with this status. -/
def answerMessage (messge : Smsg) (networkStatus : NetworkStatus) : MqData :=
  ⟨messge, sizeofData, .networkInfo (infoOf networkStatus)⟩

/-- The manager takes a message and dispatches it. -/
def takeMessage : List MessageEvent := [.recv, .copyHeader, .copyData, .dispatch]

/-- An answer of the thread to a command with this status. -/
def answerWith (messge : Smsg) (networkStatus : NetworkStatus) : List MessageEvent :=
  [.name .wifiRxThread messge, .copy .wifiRxThread (infoOf networkStatus), .send .wifiRxThread]

/-- A message that is taken before the next one is begun. -/
theorem messages_are_intact_iff_ok : ∃ taken last, messagePath.Run startMessages taken last ∧
    (Machine.Throughout messages.Exact taken last ↔ ∀ τ ∈ taken, Undisturbed τ) ∧
      taken.filterMap dispatchedMessage = [answerMessage .wifiOk .sendData] := by
  obtain ⟨taken, last, run, passed⟩ := messagePath.exists_run_of_passes startMessages
    (answerWith .wifiOk .sendData ++ takeMessage)
    (fun taken _ => taken.filterMap dispatchedMessage =
      [answerMessage .wifiOk .sendData]) (by decide +kernel)
  exact ⟨taken, last, run, messages_are_intact_iff run rfl, of_decide_eq_true passed⟩

/-- **A message is altered.** The thread answers to two commands before the manager takes a message.
Both pointers lead to the second answer, which is dispatched twice. -/
theorem messages_are_altered : ∃ taken last, messagePath.Run startMessages taken last ∧
    taken.filterMap acceptedMessage =
      [answerMessage .wifiOk .sendData, answerMessage .wifiOk .receiveData] ∧
    taken.filterMap dispatchedMessage =
      [answerMessage .wifiOk .receiveData, answerMessage .wifiOk .receiveData] := by
  obtain ⟨taken, last, run, passed⟩ := messagePath.exists_run_of_passes startMessages
    (answerWith .wifiOk .sendData ++ answerWith .wifiOk .receiveData ++ takeMessage ++ takeMessage)
    (fun taken _ => taken.filterMap acceptedMessage =
        [answerMessage .wifiOk .sendData, answerMessage .wifiOk .receiveData] ∧
      taken.filterMap dispatchedMessage =
        [answerMessage .wifiOk .receiveData, answerMessage .wifiOk .receiveData])
    (by decide +kernel)
  exact ⟨taken, last, run, of_decide_eq_true passed⟩

end WhaleShark.Network

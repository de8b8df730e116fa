import WhaleShark.Gateway.Prompts
import WhaleShark.Gateway.WifiReports

/-!
# The order of the start-up

After a restart the manager sets the module up, joins the access point and connects to the server.
Where it has come to is kept in two network statuses: `SendWifiCommand` and `ParserWifiData` write
the one of the Wi-Fi side, and each message brings a copy of it to the manager, which goes on from
there. Errors, timeouts and a lost connection lead back into the middle of the sequence.

A command follows what has been answered before (`start_up_in_order`). The manager connects to the
server only when it has handled the `OK` of the access point (`Joined`), and joins the access point
only when the DHCP mode was reported as the configured one or has been set (`DhcpSettled`). Each
status that leads on from the access point stands for the first, the status `STATUS_CONNECT_WIFI`
and the mark at `DHCP_COMPARE_RESULT` for the second (`Known`).

The reports of the addresses and of the server write such a status by themselves. That the module
makes none before it was asked (`LinesAsked`) is not enough: the names of reports are compared over
the length of the name that the last command expects, and so another line may be taken for one
(`misread_line_leads_past_join`). The order is kept while nothing else is taken for them or for a
report of the DHCP mode (`LinesNamed`) and the messages stay intact.
-/

set_option autoImplicit false

namespace WhaleShark

open Foundations Network

namespace Network

/-! ## What has to be asked for -/

/-- The lines that the module brings when it was asked, and the commands that ask: the addresses are
reported to who queries them, and the server answers over a connection. -/
def askedFor : List (List UInt8 × WifiCommandId) :=
  [(text "+CIPSTA_DEF:", .queryLocalInfo), (text "+IPD", .tcpConnect)]

/-- Which of these lines an answer is for. -/
def Answer.presumes : Answer → Option (List UInt8 × WifiCommandId)
  | .report (some .getLocalInfo) => some (text "+CIPSTA_DEF:", .queryLocalInfo)
  | .received _ => some (text "+IPD", .tcpConnect)
  | _ => none

theorem Answer.presumes_mem {answer : Answer} {line : List UInt8 × WifiCommandId}
    (presumed : answer.presumes = some line) : line ∈ askedFor := by
  unfold presumes at presumed
  split at presumed
  · cases presumed
    exact List.mem_cons_self
  · cases presumed
    exact List.mem_cons_of_mem _ List.mem_cons_self
  · cases presumed

/-- The statuses that lead on from the access point. -/
def behindJoin : List NetworkStatus :=
  [.queryApInfo, .getApInfo, .setLocalInfo, .queryLocalInfo, .getLocalInfo, .tcpConnect,
    .tcpDisconnect, .receiveData]

end Network

/-! ## What has happened -/

/-- What the parser walks over in a step: the memory, and how much of it has been received. -/
def parsedIn (τ : GatewayTransition) : Option (WifiInfo × ℕ) :=
  match τ.event with
  | .wifi (.read bytes) =>
      if bytes = [] then none
      else some (τ.source.wifi.filled bytes, τ.source.wifi.uRemain + bytes.length)
  | _ => none

/-- The lines that are taken in a step, each with what it is taken for. -/
def takenIn (site : Site) (τ : GatewayTransition) : List (List UInt8 × Answer) :=
  match parsedIn τ with
  | none => []
  | some (w, rxSize) =>
      takenAlong site.toSurroundings ⟨w, none, 0, []⟩ (List.range (rxSize + 1))

/-- The DHCP mode is found to be the configured one: a report of the mode is taken that brings
it. -/
def FindsDhcp (site : Site) (τ : GatewayTransition) : Prop :=
  ∃ line, (line, .report (some .getDhcp)) ∈ takenIn site τ ∧ BringsDhcp site.dhcpMode line

/-- The manager handles a `SMSG_WIFI_OK` in this status. -/
def Acknowledges (site : Site) (status : NetworkStatus) (τ : GatewayTransition) : Prop :=
  ∃ message, handledIn τ = some message ∧ message.messge = .wifiOk ∧
    (site.laid message.data).1 = some status

instance (site : Site) (status : NetworkStatus) (τ : GatewayTransition) :
    Decidable (Acknowledges site status τ) :=
  decidable_of_iff ((handledIn τ).any (fun message => decide (message.messge = .wifiOk ∧
      (site.laid message.data).1 = some status)) = true)
    (by simp [Acknowledges, Option.any_eq_true])

section History

variable (site : Site) (past : List GatewayTransition)

/-- The manager has issued this command. -/
def Issued (id : WifiCommandId) : Prop := ∃ σ ∈ past, reactionIn site σ = some (.command id)

/-- The access point has been joined. -/
def Joined : Prop := ∃ σ ∈ past, Acknowledges site .connectWifi σ

/-- The DHCP mode has been found to be the configured one, or has been set. -/
def DhcpSettled : Prop := ∃ σ ∈ past, FindsDhcp site σ ∨ Acknowledges site .setDhcp σ

/-- No line comes in this step before it was asked for. -/
def LinesAsked (τ : GatewayTransition) : Prop :=
  ∀ taken ∈ takenIn site τ, ∀ line ∈ askedFor, line.1 <+: taken.1 → Issued site past line.2

/-- What is taken for such a line in this step begins with its name, and what is taken for a report
of the DHCP mode is one. -/
def LinesNamed (τ : GatewayTransition) : Prop :=
  ∀ taken ∈ takenIn site τ, (∀ line ∈ taken.2.presumes, line.1 <+: taken.1) ∧
    (taken.2 = .report (some .getDhcp) → IsDhcpLine taken.1)

/-- No answer comes in this step before it was asked for, and each report of the DHCP mode is
one. -/
structure AnswersAsked (τ : GatewayTransition) : Prop where
  issued : ∀ taken ∈ takenIn site τ, ∀ line ∈ taken.2.presumes, Issued site past line.2
  dhcp : ∀ taken ∈ takenIn site τ, taken.2 = .report (some .getDhcp) → IsDhcpLine taken.1

/-- What the manager does in this step is in its order. The module was restarted before the first
step of a run. -/
structure InOrder (τ : GatewayTransition) : Prop where
  restart : reactionIn site τ ≠ some (.command .restart)
  tcpConnect : reactionIn site τ = some (.command .tcpConnect) → Joined site past
  connectAp : reactionIn site τ = some (.command .connectAp) → DhcpSettled site (past ++ [τ])

instance (id : WifiCommandId) : Decidable (Issued site past id) :=
  inferInstanceAs (Decidable (∃ σ ∈ past, _))

instance (τ : GatewayTransition) : Decidable (LinesAsked site past τ) :=
  inferInstanceAs (Decidable (∀ taken ∈ takenIn site τ, _))

instance (τ : GatewayTransition) : Decidable (LinesNamed site τ) :=
  inferInstanceAs (Decidable (∀ taken ∈ takenIn site τ, _))

end History

section Concat

variable {site : Site} {past : List GatewayTransition} {τ : GatewayTransition}

theorem exists_mem_concat {P : GatewayTransition → Prop} :
    (∃ σ ∈ past ++ [τ], P σ) ↔ (∃ σ ∈ past, P σ) ∨ P τ := by
  simp only [List.mem_append, List.mem_singleton, or_and_right, exists_or, exists_eq_left]

theorem Joined.concat (joined : Joined site past) : Joined site (past ++ [τ]) :=
  exists_mem_concat.mpr (.inl joined)

theorem DhcpSettled.concat (settled : DhcpSettled site past) : DhcpSettled site (past ++ [τ]) :=
  exists_mem_concat.mpr (.inl settled)

end Concat

/-! ## What a status tells -/

/-- What `networkInfoData` tells of the steps so far. -/
structure Known (site : Site) (past : List GatewayTransition) (info : NetworkInfoData) : Prop where
  joined : info.networkStatus ∈ behindJoin → Joined site past
  settled : info.networkStatus = .connectWifi ∨ byteAt info.data.cells dhcpCompareResult ≠ 0 →
    DhcpSettled site past

section Known

variable {site : Site} {past : List GatewayTransition} {info info' : NetworkInfoData}

theorem Known.concat (known : Known site past info) (τ : GatewayTransition) :
    Known site (past ++ [τ]) info :=
  ⟨fun behind => (known.joined behind).concat, fun marked => (known.settled marked).concat⟩

/-- Behind the access point everything is known. -/
theorem Known.of_joined (settles : Joined site past → DhcpSettled site past)
    (joined : Joined site past) : Known site past info :=
  ⟨fun _ => joined, fun _ => settles joined⟩

/-- Neither the status nor the mark tells anything. -/
theorem Known.of_untold (notBehind : info.networkStatus ∉ behindJoin)
    (notConnecting : info.networkStatus ≠ .connectWifi)
    (marked : byteAt info.data.cells dhcpCompareResult ≠ 0 → DhcpSettled site past) :
    Known site past info :=
  ⟨fun behind => absurd behind notBehind, fun told => told.elim (absurd · notConnecting) marked⟩

/-- The data of a value that is copied is marked only if the data was. -/
theorem Known.copied (known : Known site past info) {value : List UInt8}
    (marked : byteAt (copyValue info value).data.cells dhcpCompareResult ≠ 0) :
    DhcpSettled site past :=
  known.settled (.inr fun unmarked => marked (compared_copyValue unmarked value))

/-- **One position of the walk.** -/
theorem Known.notes {env : Surroundings} {answers : List Answer} (known : Known site past info)
    (notes : Notes env info answers info')
    (settles : Joined site past → DhcpSettled site past)
    (asked : ∀ answer ∈ answers, answer.presumes ≠ none → Joined site past)
    (finds : answers = [.report (some .getDhcp)] →
      byteAt info'.data.cells dhcpCompareResult = 1 → DhcpSettled site past) :
    Known site past info' := by
  have reported (answer : Answer) (here : answers = [answer])
      (presumes : answer.presumes ≠ none) : Known site past info' :=
    .of_joined settles (asked answer (here ▸ List.mem_singleton_self answer) presumes)
  cases notes with
  | nothing => exact known
  | unknown => exact known
  | prompted =>
      exact .of_untold (by simp [behindJoin]) (by simp) fun marked => known.settled (.inr marked)
  | responds => exact ⟨known.joined, known.settled⟩
  | @reports w here id value =>
      subst here
      cases id
      case getMode =>
        refine .of_untold (by simp [takeReport, behindJoin]) (by simp [takeReport]) ?_
        rw [compared_getMode]
        exact fun marked => known.settled (.inr marked)
      case getDhcp =>
        refine .of_untold (by simp [takeReport, behindJoin]) (by simp [takeReport]) ?_
        intro marked
        refine finds rfl ?_
        rw [compared_getDhcp] at marked ⊢
        exact if_pos (of_not_not fun other => marked (if_neg other))
      case getApInfo =>
        by_cases queried : w.networkInfoData.networkStatus = .queryApInfo
        · exact .of_joined settles (known.joined (by simp [queried, behindJoin]))
        · refine ⟨fun behind => known.joined ?_, ?_⟩
          · simpa [takeReport, queried, copyValue] using behind
          · simp only [takeReport, if_neg queried]
            rintro (connecting | marked)
            · exact known.settled (.inl connecting)
            · exact known.copied marked
      case getLocalInfo => exact reported _ rfl (by simp [takeReport, Answer.presumes])
      case getMacInfo =>
        exact .of_untold (by simp [takeReport, behindJoin]) (by simp [takeReport])
          fun marked => known.copied marked
      case receiveData => exact reported _ rfl (by simp [takeReport, Answer.presumes])
      all_goals exact known

end Known

/-- The whole walk, when the answers that it takes have been asked for. -/
theorem walk_known {site : Site} {past : List GatewayTransition} {env : Surroundings} {w : WifiInfo}
    (known : Known site past w.networkInfoData)
    (settles : Joined site past → DhcpSettled site past) (count : ℕ)
    (asked : ∀ taken ∈ takenAlong env ⟨w, none, 0, []⟩ (List.range count),
      taken.2.presumes ≠ none → Joined site past)
    (dhcp : ∀ taken ∈ takenAlong env ⟨w, none, 0, []⟩ (List.range count),
      taken.2 = .report (some .getDhcp) → IsDhcpLine taken.1)
    (finds : ∀ line, (line, .report (some .getDhcp)) ∈
      takenAlong env ⟨w, none, 0, []⟩ (List.range count) →
        BringsDhcp env.dhcpMode line → DhcpSettled site past) :
    Known site past (walk env ⟨w, none, 0, []⟩ 0 count).wifi.networkInfoData := by
  induction count with
  | zero => exact known
  | succ count ih =>
      rw [List.range_succ, takenAlong_concat, List.range_eq_range', ← walk] at asked dhcp finds
      rw [List.range_eq_range'] at ih
      obtain ⟨answers, more, notes⟩ :=
        parseStep_notes env (walk env ⟨w, none, 0, []⟩ 0 count) count
      have here : answers =
          (takenAt env (walk env ⟨w, none, 0, []⟩ 0 count) count).toList.map Prod.snd :=
        List.append_cancel_left (more.symm.trans (answers_parseStep env _ count))
      rw [walk_add, walk_one, Nat.zero_add]
      refine (ih (fun taken member => ?_) (fun taken member => ?_) fun line member => ?_).notes
        notes settles ?_ ?_
      · exact asked taken (List.mem_append_left _ member)
      · exact dhcp taken (List.mem_append_left _ member)
      · exact finds line (List.mem_append_left _ member)
      · intro answer member
        rw [here] at member
        obtain ⟨taken, takes, rfl⟩ := List.mem_map.mp member
        exact asked taken (List.mem_append_right _ takes)
      · intro own marked
        have takes := takenAt_of_answers (by rw [more, own])
        have member := List.mem_append_right
          (takenAlong env ⟨w, none, 0, []⟩ (List.range' 0 count)) (Option.mem_toList.mpr takes)
        exact finds _ member
          (bringsDhcp_of_marked (by rw [more, own]) (dhcp _ member rfl) marked)

/-! ## What leads to a command -/

/-- The messages that lead to a command, for the commands from the access point on. -/
inductive Asks (messge : Smsg) (networkStatus : Option NetworkStatus) (info : List UInt8)
    (tcpOn : FunctionalState) : WifiCommandId → Prop where
  | early {id : WifiCommandId}
      (own : id ∈ [.echoOff, .setPower, .disableSleepMode, .queryMode, .setMode, .queryDhcp,
        WifiCommandId.setDhcp]) : Asks messge networkStatus info tcpOn id
  | found (said : networkStatus = some .getDhcpInfo) (equal : byteAt info dhcpCompareResult = 1) :
      Asks messge networkStatus info tcpOn .connectAp
  | set (code : messge = .wifiOk) (said : networkStatus = some .setDhcp) :
      Asks messge networkStatus info tcpOn .connectAp
  | again (said : networkStatus = some .connectWifi) :
      Asks messge networkStatus info tcpOn .connectAp
  | joined (code : messge = .wifiOk) (said : networkStatus = some .connectWifi) :
      Asks messge networkStatus info tcpOn .queryApInfo
  | behind {id : WifiCommandId} {status : NetworkStatus}
      (own : id ∈ [.queryLocalInfo, .setLocalInfo, WifiCommandId.tcpConnect])
      (said : networkStatus = some status) (later : status ∈ behindJoin) :
      Asks messge networkStatus info tcpOn id
  | closes (connected : tcpOn = enable) : Asks messge networkStatus info tcpOn .tcpDisconnect

section Asks

variable {messge : Smsg} {networkStatus : Option NetworkStatus} {info : List UInt8}
  {tcpOn : FunctionalState} {retryCount : UInt8} {id : WifiCommandId}

theorem toOk_asks {status : NetworkStatus}
    (decides : Reaction.toOk status info tcpOn = .command id) :
    Asks .wifiOk (some status) info tcpOn id := by
  cases status
  case getWifiMode =>
    simp only [Reaction.toOk] at decides
    split_ifs at decides
    · cases decides
      exact .early (by simp)
    · cases decides
      exact .early (by simp)
  case getDhcpInfo =>
    simp only [Reaction.toOk] at decides
    split_ifs at decides with equal
    · cases decides
      exact .found rfl equal
    · cases decides
      exact .early (by simp)
  case getApInfo | getLocalInfo =>
    simp only [Reaction.toOk] at decides
    split_ifs at decides
    · cases decides
      exact .behind (by simp) rfl (by simp [behindJoin])
    · cases decides
      exact .behind (by simp) rfl (by simp [behindJoin])
  case setLocalInfo | tcpDisconnect =>
    cases decides
    exact .behind (by simp) rfl (by simp [behindJoin])
  case setDhcp =>
    cases decides
    exact .set rfl rfl
  case connectWifi =>
    cases decides
    exact .joined rfl rfl
  case tcpConnect =>
    simp only [Reaction.toOk] at decides
    split_ifs at decides
  case wifiRestart | echoOff | setRfpower | disableSleepMode | setWifiMode =>
    cases decides
    exact .early (by simp)
  all_goals cases decides

theorem again_asks (counted : Reaction.again messge networkStatus = some (.command id)) :
    Asks messge networkStatus info tcpOn id := by
  unfold Reaction.again at counted
  split at counted
  · cases counted
  · cases counted
  · cases counted
    exact .behind (by simp) rfl (by simp [behindJoin])
  · cases counted
    exact .again rfl
  · cases counted
    exact .again rfl
  · cases counted

theorem toFailure_asks (decides : Reaction.toFailure messge networkStatus tcpOn = .command id) :
    Asks messge networkStatus info tcpOn id := by
  unfold Reaction.toFailure at decides
  split at decides
  · cases decides
  · cases decides
  · cases decides
  · cases decides
  · split_ifs at decides with connected
    cases decides
    exact .closes connected

/-- A command is asked for by one of these. -/
theorem reaction_asks
    (decides : reaction messge networkStatus info tcpOn retryCount = .command id) :
    Asks messge networkStatus info tcpOn id := by
  cases messge with
  | wifiOk =>
      cases networkStatus with
      | none => cases decides
      | some status => exact toOk_asks decides
  | tcpSendData => cases decides
  | wifiError | wifiFail | wifiTimeout =>
      simp only [reaction] at decides
      split at decides
      · rename_i counted
        split_ifs at decides
        exact again_asks (decides ▸ counted)
      · exact toFailure_asks decides

end Asks

/-! ## One step -/

/-- A message brings what is known. -/
def Brings (site : Site) (past : List GatewayTransition) (message : MqData) : Prop :=
  ∃ info, message.data = .networkInfo info ∧ Known site past info

/-- What is known of a gateway behind these steps. -/
structure StartsUp (site : Site) (past : List GatewayTransition) (g : Gateway) : Prop where
  settles : Joined site past → DhcpSettled site past
  wifi : Known site past g.wifi.wifi.networkInfoData
  mqData : Brings site past g.wifi.wifi.mqData
  queue : ∀ message ∈ g.networkManagerMq.items,
    message.messge = .tcpSendData ∨ Brings site past message
  connected : g.getTcpStatus = enable → Joined site past
  issued : ∀ id ∈ askedFor.map Prod.snd, Issued site past id → Joined site past

theorem Brings.concat {site : Site} {past : List GatewayTransition} {message : MqData}
    (brings : Brings site past message) (τ : GatewayTransition) :
    Brings site (past ++ [τ]) message := by
  obtain ⟨info, data, known⟩ := brings
  exact ⟨info, data, known.concat τ⟩

section Unhandled

variable {site : Site} {past : List GatewayTransition} {τ : GatewayTransition}
  (unhandled : handledIn τ = none)

include unhandled

theorem not_acknowledges (status : NetworkStatus) : ¬ Acknowledges site status τ := by
  rintro ⟨message, handled, -⟩
  rw [unhandled] at handled
  cases handled

theorem joined_of_unhandled (joined : Joined site (past ++ [τ])) : Joined site past :=
  (exists_mem_concat.mp joined).resolve_right (not_acknowledges unhandled _)

theorem issued_of_unhandled {id : WifiCommandId} (issued : Issued site (past ++ [τ]) id) :
    Issued site past id := by
  refine (exists_mem_concat.mp issued).resolve_right fun here => ?_
  rw [reactionIn, unhandled] at here
  cases here

/-- A step in which no message is handled. -/
theorem StartsUp.idle (before : StartsUp site past τ.source)
    (wifi : Known site (past ++ [τ]) τ.target.wifi.wifi.networkInfoData)
    (mqData : Brings site (past ++ [τ]) τ.target.wifi.wifi.mqData)
    (queue : ∀ message ∈ τ.target.networkManagerMq.items,
      message ∈ τ.source.networkManagerMq.items ∨ message.messge = .tcpSendData ∨
        Brings site (past ++ [τ]) message)
    (flag : τ.target.getTcpStatus = τ.source.getTcpStatus) :
    StartsUp site (past ++ [τ]) τ.target where
  settles joined := (before.settles (joined_of_unhandled unhandled joined)).concat
  wifi := wifi
  mqData := mqData
  queue message member := by
    rcases queue message member with earlier | new
    · exact (before.queue message earlier).imp_right (·.concat τ)
    · exact new
  connected on := (before.connected (flag.symm.trans on)).concat
  issued id own issued := (before.issued id own (issued_of_unhandled unhandled issued)).concat

end Unhandled

/-! ### A step of the Wi-Fi side -/

/-- Where nothing is read, what is posted and what stays is what was known. -/
theorem known_posted {site : Site} {past : List GatewayTransition} {env : Surroundings}
    {t t' : WifiThread} {e : WifiEvent} {o : WifiOutput} (step : WifiStep env t e t' o)
    (own : ∀ call, e ≠ .store call) (known : Known site past t.wifi.networkInfoData)
    (brings : Brings site past t.wifi.mqData)
    (read : ∀ bytes, e = .read bytes → bytes ≠ [] →
      Known site past t'.wifi.networkInfoData) :
    Known site past t'.wifi.networkInfoData ∧ Brings site past t'.wifi.mqData ∧
      ∀ message, o = .message message → Brings site past message := by
  have silent {o : WifiOutput} (none_ : ∀ message, o ≠ .message message) :
      ∀ message, o = .message message → Brings site past message :=
    fun message posted => absurd posted (none_ message)
  have answered : Known site past { t.wifi.networkInfoData with response := .responseMax } :=
    ⟨known.joined, known.settled⟩
  cases step with
  | store => exact absurd rfl (own _)
  | indicate =>
      rw [wifi_rtEventSend]
      exact ⟨known, brings, silent (by simp)⟩
  | post =>
      rw [wifi_rtEventSend]
      exact ⟨known, brings, silent (by simp)⟩
  | recv =>
      rw [wifi_rtEventRecv]
      exact ⟨known, brings, silent (by simp)⟩
  | receive | transmit | ignore | finish => exact ⟨known, brings, silent (by simp)⟩
  | @read bytes _ some_ =>
      refine ⟨read bytes rfl some_, ?_, silent (by simp)⟩
      rw [(readBytes_tells env t bytes).mqData]
      exact brings
  | respond =>
      simp only [postResponse]
      split
      · exact ⟨known, brings, silent (by simp)⟩
      · refine ⟨answered, ⟨_, rfl, answered⟩, fun message posted => ?_⟩
        cases posted
        exact ⟨_, rfl, answered⟩
  | wifiTimeout =>
      refine ⟨answered, ⟨_, rfl, known⟩, fun message posted => ?_⟩
      cases posted
      exact ⟨_, rfl, known⟩
  | sendTimeout =>
      obtain ⟨info, data, knownInfo⟩ := brings
      refine ⟨answered, ⟨info, data, knownInfo⟩, fun message posted => ?_⟩
      cases posted
      exact ⟨info, data, knownInfo⟩

section Wifi

variable {site : Site} {past : List GatewayTransition} {g : Gateway} {o : Unit}

/-- What is read tells what is known, when the module answers what it was asked. -/
theorem known_read {τ : GatewayTransition} {bytes : List UInt8}
    (reads : τ.event = .wifi (.read bytes)) (some_ : bytes ≠ [])
    (before : StartsUp site past τ.source) (asked : AnswersAsked site past τ) :
    Known site (past ++ [τ])
      (readBytes site.toSurroundings τ.source.wifi bytes).1.wifi.networkInfoData := by
  have parsed : parsedIn τ =
      some (τ.source.wifi.filled bytes, τ.source.wifi.uRemain + bytes.length) := by
    simp only [parsedIn, reads]
    rw [if_neg some_]
  have unhandled : handledIn τ = none := by simp only [handledIn, reads]
  have size : τ.source.wifi.uRemain + bytes.length ≠ 0 := by
    have length := List.length_pos_iff.mpr some_
    omega
  have walked := parserWifiData_eq_walk site.toSurroundings (τ.source.wifi.filled bytes) size
  have told : (readBytes site.toSurroundings τ.source.wifi bytes).1.wifi.networkInfoData =
      (walk site.toSurroundings ⟨τ.source.wifi.filled bytes, none, 0, []⟩ 0
        (τ.source.wifi.uRemain + bytes.length + 1)).wifi.networkInfoData := by
    rw [← walked]
    rfl
  have filled : Known site (past ++ [τ]) (τ.source.wifi.filled bytes).networkInfoData :=
    before.wifi.concat τ
  have taken : takenIn site τ =
      takenAlong site.toSurroundings ⟨τ.source.wifi.filled bytes, none, 0, []⟩
        (List.range (τ.source.wifi.uRemain + bytes.length + 1)) := by
    simp only [takenIn, parsed]
  rw [told]
  refine walk_known filled ?_ _ ?_ ?_ ?_
  · exact fun joined => (before.settles (joined_of_unhandled unhandled joined)).concat
  · intro found takes presumes
    rw [← taken] at takes
    obtain ⟨line, own⟩ := Option.ne_none_iff_exists'.mp presumes
    have issued : Issued site past line.2 := asked.issued found takes line own
    exact (before.issued line.2 (List.mem_map_of_mem (Answer.presumes_mem own)) issued).concat
  · rw [← taken]
    exact asked.dhcp
  · rw [← taken]
    exact fun line takes brings => ⟨τ, by simp, .inl ⟨line, takes, brings⟩⟩

theorem startsUp_wifi {e : WifiEvent} {wifi : WifiThread} {output : WifiOutput}
    (step : WifiStep site.toSurroundings g.wifi e wifi output) (own : ∀ call, e ≠ .store call)
    (asked : AnswersAsked site past ⟨g, .wifi e, o, g.behindWifi e wifi output⟩)
    (before : StartsUp site past g) :
    StartsUp site (past ++ [⟨g, .wifi e, o, g.behindWifi e wifi output⟩])
      (g.behindWifi e wifi output) := by
  have behind := Gateway.wifi_behindWifi g e wifi output
  obtain ⟨known, brings, posted⟩ := known_posted step own
    (before.wifi.concat ⟨g, .wifi e, o, g.behindWifi e wifi output⟩) (before.mqData.concat _) (by
      rintro bytes rfl some_
      cases step with
      | read => exact known_read rfl some_ before asked
      | respond => exact absurd rfl some_)
  refine StartsUp.idle rfl before ?_ ?_ ?_ ?_
  · rw [behind]
    exact known
  · rw [behind]
    exact brings
  · intro message member
    by_cases silent : ∀ message, output ≠ .message message
    · rw [Gateway.networkManagerMq_behindWifi g e wifi silent] at member
      exact .inl member
    · obtain ⟨last, rfl⟩ := not_forall_not.mp silent
      rw [Gateway.items_behindWifi] at member
      split at member
      · refine (List.mem_append.mp member).imp_right fun new => ?_
        rw [List.mem_singleton.mp new]
        exact .inr (posted last rfl)
      · exact .inl member
  · rw [Gateway.getTcpStatus, Gateway.plc_behindWifi, Gateway.getTcpStatus]

end Wifi

/-! ### A turn of the PLC thread -/

/-- A turn leaves the TCP flag. -/
theorem Plc.tcpOn_plccommRx {t t' : PlcThread} {rx inc : Bool} {reads : List (List UInt8)}
    {made : Option Packetised} (turn : plccommRx t rx inc reads = some (t', made)) :
    t'.info.tcpOn = t.info.tcpOn := by
  rcases plccommRx_due turn with ⟨-, -, kept⟩ | ⟨-, s, kept, rfl, -⟩
  · exact kept.tcpOn
  · exact (packetise_keeps s).1.2.2.trans kept.tcpOn

theorem startsUp_plc {site : Site} {past : List GatewayTransition} {g : Gateway} {rx : Bool}
    {reads : List (List UInt8)} {o : Unit} {t : Plc.PlcThread} {made : Option Plc.Packetised}
    (turn : Plc.plccommRx g.plc rx g.incData reads = some (t, made))
    (before : StartsUp site past g) :
    StartsUp site (past ++ [⟨g, .plc rx reads, o, g.behindPlc t made⟩]) (g.behindPlc t made) := by
  refine StartsUp.idle rfl before ?_ ?_ ?_ ?_
  · rw [Gateway.wifi_behindPlc]
    exact before.wifi.concat _
  · rw [Gateway.wifi_behindPlc]
    exact before.mqData.concat _
  · intro message member
    rcases items_behindPlc g t made with same | ⟨packet, more⟩
    · exact .inl (by rwa [same] at member)
    · rw [more] at member
      refine (List.mem_append.mp member).imp_right fun new => ?_
      rw [List.mem_singleton.mp new]
      exact .inl rfl
  · rw [Gateway.getTcpStatus, Gateway.plc_behindPlc, Plc.tcpOn_plccommRx turn,
      Gateway.getTcpStatus]

/-! ### A message that is handled -/

section Handle

variable {site : Site} {past : List GatewayTransition} {g : Gateway} {o : Unit} {message : MqData}
  {queue : Fifo MqData networkmanagerMqSize}

theorem data_handle (site : Site) (g : Gateway) (message : MqData) :
    (Gateway.handle site g message).wifi.wifi.networkInfoData.data =
      g.wifi.wifi.networkInfoData.data := by
  rw [Gateway.handle_eq]
  cases g.reactionTo site message <;> rfl

/-- The flag is set by an acknowledgement and by a connection. -/
theorem tcpStatus_handle
    (on : (Gateway.handle site g message).getTcpStatus = enable) :
    g.getTcpStatus = enable ∨ g.reactionTo site message = .acknowledge ∨
      g.reactionTo site message = .connect := by
  rw [Gateway.handle_eq] at on
  revert on
  cases reacts : g.reactionTo site message with
  | acknowledge => exact fun _ => .inr (.inl rfl)
  | connect => exact fun _ => .inr (.inr rfl)
  | resend => exact fun (on : disable = enable) => absurd on (by decide)
  | _ => exact fun on => .inl on

/-- The commands that announce a status behind the access point. -/
def queriesBehind : List WifiCommandId :=
  [.queryApInfo, .tcpDisconnect, .queryLocalInfo, .setLocalInfo, .tcpConnect]

theorem Reaction.announces_behindJoin {r : Reaction} {status : NetworkStatus}
    (announced : r.announces = some status) (behind : status ∈ behindJoin) :
    ∃ id ∈ queriesBehind, r = .command id := by
  cases r with
  | command id =>
      refine ⟨id, ?_, rfl⟩
      cases id <;> cases announced <;> revert behind <;> decide
  | setDataLength | sendData | resend =>
      cases announced
      exact absurd behind (by decide)
  | awaitAck | acknowledge | connect | ignore | reboot => cases announced

theorem Reaction.announces_connectWifi {r : Reaction}
    (announced : r.announces = some .connectWifi) : r = .command .connectAp := by
  cases r with
  | command id => cases id <;> first | rfl | cases announced
  | _ => cases announced

/-- **What a command that is issued follows.** -/
structure Commands (site : Site) (past : List GatewayTransition) (τ : GatewayTransition)
    (id : WifiCommandId) : Prop where
  restart : id ≠ .restart
  connectAp : id = .connectAp → DhcpSettled site (past ++ [τ])
  queries : id ∈ queriesBehind → Joined site (past ++ [τ])
  behind : id ∈ [.queryLocalInfo, .setLocalInfo, WifiCommandId.tcpConnect] → Joined site past

theorem Asks.commands {τ : GatewayTransition} {info : NetworkInfoData} {tcpOn : FunctionalState}
    {id : WifiCommandId} (handled : handledIn τ = some message)
    (asks : Asks message.messge (some info.networkStatus) info.data.cells tcpOn id)
    (laid : (site.laid message.data).1 = some info.networkStatus)
    (known : Known site past info) (connected : tcpOn = enable → Joined site past) :
    Commands site past τ id := by
  have here (status : NetworkStatus) (code : message.messge = .wifiOk)
      (said : some info.networkStatus = some status) : Acknowledges site status τ :=
    ⟨message, handled, code, laid.trans said⟩
  cases asks with
  | early own =>
      simp only [List.mem_cons, List.not_mem_nil, or_false] at own
      rcases own with rfl | rfl | rfl | rfl | rfl | rfl | rfl <;>
        exact ⟨by simp, by simp, by simp [queriesBehind], by simp⟩
  | found said equal =>
      refine ⟨by simp, fun _ => ?_, by simp [queriesBehind], by simp⟩
      exact (known.settled (.inr (by rw [equal]; decide))).concat
  | set code said =>
      refine ⟨by simp, fun _ => ?_, by simp [queriesBehind], by simp⟩
      exact exists_mem_concat.mpr (.inr (.inr (here .setDhcp code said)))
  | again said =>
      refine ⟨by simp, fun _ => ?_, by simp [queriesBehind], by simp⟩
      exact (known.settled (.inl (Option.some.inj said))).concat
  | joined code said =>
      refine ⟨by simp, by simp, fun _ => ?_, by simp⟩
      exact exists_mem_concat.mpr (.inr (here .connectWifi code said))
  | @behind id status own said later =>
      have joined : Joined site past := known.joined (by rwa [Option.some.inj said])
      refine ⟨?_, ?_, fun _ => joined.concat, fun _ => joined⟩
      · rintro rfl
        simp at own
      · rintro rfl
        simp at own
  | closes on =>
      exact ⟨by simp, by simp, fun _ => (connected on).concat, by simp⟩

/-- A message that is no packet brings what is known. -/
theorem StartsUp.brings {τ : GatewayTransition} (before : StartsUp site past τ.source)
    (takes : (gateway site).Takes τ) (handled : handledIn τ = some message)
    (other : message.messge ≠ .tcpSendData) : Brings site past message := by
  obtain ⟨queue, items, -⟩ := handle_of_handledIn takes handled
  refine (before.queue message ?_).resolve_left other
  rw [items]
  exact List.mem_cons_self

theorem laid_networkInfo (site : Site) {info : NetworkInfoData}
    (data : message.data = .networkInfo info) :
    site.laid message.data = (some info.networkStatus, info.data) := by
  rw [data]
  rfl

/-- A packet that is queued is taken over, whatever else the gateway is about. -/
theorem not_packet_of_reaction {r : Reaction} (decides : g.reactionTo site message = r)
    (other : r ≠ .setDataLength) : message.messge ≠ .tcpSendData := by
  intro code
  rw [Gateway.reactionTo, code] at decides
  exact other decides.symm

theorem StartsUp.commands {τ : GatewayTransition} (before : StartsUp site past τ.source)
    (takes : (gateway site).Takes τ) {id : WifiCommandId}
    (issues : reactionIn site τ = some (.command id)) : Commands site past τ id := by
  obtain ⟨message, handled, decides⟩ := Option.map_eq_some_iff.mp issues
  obtain ⟨info, data, known⟩ :=
    before.brings takes handled (not_packet_of_reaction decides (by simp))
  have laid := laid_networkInfo site data
  rw [Gateway.reactionTo, laid] at decides
  exact (reaction_asks decides).commands handled (by rw [laid]) known before.connected

/-- The status that a reaction announces tells what is known. -/
theorem known_announced {τ : GatewayTransition} {r : Reaction} {info : NetworkInfoData}
    (known : Known site (past ++ [τ]) info)
    (commands : ∀ id, r = .command id → Commands site past τ id) :
    Known site (past ++ [τ])
      { info with networkStatus := r.announces.getD info.networkStatus } := by
  cases announced : r.announces with
  | none => exact known
  | some status =>
      refine ⟨fun behind => ?_, ?_⟩
      · obtain ⟨id, own, rfl⟩ := Reaction.announces_behindJoin announced behind
        exact (commands id rfl).queries own
      · rintro (connecting | marked)
        · obtain rfl := Reaction.announces_connectWifi (announced.trans (congrArg some connecting))
          exact (commands .connectAp rfl).connectAp rfl
        · exact known.settled (.inr marked)

theorem startsUp_handle (popped : g.networkManagerMq.pop = some (message, queue))
    (takes : (gateway site).Takes ⟨g, .handle, o, behindMessage site g queue message⟩)
    (before : StartsUp site past g) :
    StartsUp site (past ++ [⟨g, .handle, o, behindMessage site g queue message⟩])
      (behindMessage site g queue message) := by
  have handled : handledIn ⟨g, .handle, o, behindMessage site g queue message⟩ = some message :=
    handledIn_handle popped
  have reacts := reactionIn_handle (o := o) site popped
  have commands (id : WifiCommandId)
      (issues : g.reactionTo site message = .command id) :
      Commands site past ⟨g, .handle, o, behindMessage site g queue message⟩ id :=
    before.commands takes (by rw [reacts, issues])
  have brings (other : message.messge ≠ .tcpSendData) : Brings site past message :=
    before.brings takes handled other
  refine ⟨fun joined => ?_, ?_, ?_, ?_, fun on => ?_, fun id own issued => ?_⟩
  · rcases exists_mem_concat.mp joined with earlier | ⟨m, handles, code, said⟩
    · exact (before.settles earlier).concat
    · obtain rfl : message = m := Option.some.inj (handled.symm.trans handles)
      obtain ⟨info, data, known⟩ := brings (by rw [code]; simp)
      rw [laid_networkInfo site data] at said
      exact (known.settled (.inl (Option.some.inj said))).concat
  · have announced := known_announced (before.wifi.concat _) commands
    refine ⟨fun behind => announced.joined ?_, fun told => announced.settled ?_⟩
    · rwa [wifiStatus_behindMessage] at behind
    · rwa [wifiStatus_behindMessage, data_handle] at told
  · rw [Gateway.mqData_handle]
    exact before.mqData.concat _
  · intro m member
    have earlier : m ∈ g.networkManagerMq.items := by
      rw [items_behindMessage site popped]
      exact List.mem_cons_of_mem _ member
    exact (before.queue m earlier).imp_right (·.concat _)
  · rcases tcpStatus_handle on with already | acknowledges | connects
    · exact (before.connected already).concat
    · obtain ⟨info, data, known⟩ := brings (not_packet_of_reaction acknowledges (by simp))
      have leads := Gateway.reactionTo_leads site { g with networkManagerMq := queue } message
      rw [acknowledges, laid_networkInfo site data] at leads
      cases leads with
      | acknowledged _ received =>
          refine (known.joined ?_).concat
          rw [Option.some.inj received]
          decide
    · obtain ⟨info, data, known⟩ := brings (not_packet_of_reaction connects (by simp))
      have leads := Gateway.reactionTo_leads site { g with networkManagerMq := queue } message
      rw [connects, laid_networkInfo site data] at leads
      cases leads with
      | connected _ named =>
          refine (known.joined ?_).concat
          rw [Option.some.inj named]
          decide
  · rcases exists_mem_concat.mp issued with earlier | here
    · exact (before.issued id own earlier).concat
    · have issues : g.reactionTo site message = .command id :=
        Option.some.inj (reacts.symm.trans here)
      refine ((commands id issues).behind ?_).concat
      simp only [askedFor, List.map_cons, List.map_nil, List.mem_cons, List.not_mem_nil,
        or_false] at own ⊢
      exact own.imp_right .inr

end Handle

/-- **One step.** -/
theorem StartsUp.step {site : Site} {past : List GatewayTransition} {τ : GatewayTransition}
    (takes : (gateway site).Takes τ) (asked : AnswersAsked site past τ)
    (before : StartsUp site past τ.source) : StartsUp site (past ++ [τ]) τ.target := by
  obtain ⟨g, e, o, g'⟩ := τ
  have step : GatewayStep site g e g' := (gateway_cases takes).2
  cases step with
  | wifi step own => exact startsUp_wifi step own asked before
  | plc turn => exact startsUp_plc turn before
  | handle popped => exact startsUp_handle popped takes before
  | responseTimeout =>
      exact StartsUp.idle rfl before (before.wifi.concat _) (before.mqData.concat _)
        (fun _ member => .inl member) rfl

/-- What the manager does is in order. -/
theorem StartsUp.inOrder {site : Site} {past : List GatewayTransition} {τ : GatewayTransition}
    (before : StartsUp site past τ.source) (takes : (gateway site).Takes τ) :
    InOrder site past τ where
  restart issues := (before.commands takes issues).restart rfl
  tcpConnect issues := (before.commands takes issues).behind (by simp)
  connectAp issues := (before.commands takes issues).connectAp rfl

/-! ## A run -/

/-- The gateway has been started: `CMD_RESTART` is issued, nothing has been received, there is no
connection and no mark. -/
structure Restarted (g : Gateway) : Prop extends Starts g where
  off : g.getTcpStatus = disable
  unmarked : byteAt g.wifi.wifi.networkInfoData.data.cells dhcpCompareResult = 0

theorem startGateway_restarted (site : Site) : Restarted (startGateway site) :=
  ⟨startGateway_starts site, rfl, rfl⟩

theorem Restarted.startsUp {site : Site} {g : Gateway} (restarted : Restarted g) :
    StartsUp site [] g where
  settles := by rintro ⟨_, member, -⟩; cases member
  wifi := by
    refine .of_untold ?_ ?_ fun marked => absurd restarted.unmarked marked
    · rw [restarted.wifi]
      decide
    · rw [restarted.wifi]
      decide
  mqData := by
    refine ⟨⟨.ok, .none, .fill 128 0⟩, by rw [restarted.mqData]; rfl, ?_⟩
    exact .of_untold (by decide) (by decide) fun marked => absurd rfl marked
  queue := by simp [restarted.queue]
  connected on := by
    rw [restarted.off] at on
    cases on
  issued id own := by rintro ⟨_, member, -⟩; cases member

/-- What is taken for a line that has to be asked for is that line, and was asked for. -/
theorem AnswersAsked.of_lines {site : Site} {past : List GatewayTransition} {τ : GatewayTransition}
    (asked : LinesAsked site past τ) (named : LinesNamed site τ) : AnswersAsked site past τ where
  issued taken member line own :=
    asked taken member line (Answer.presumes_mem own) ((named taken member).1 line own)
  dhcp taken member := (named taken member).2

/-- A run of `gateway`, whose messages are handled as they were sent. -/
theorem inOrder_of_asked {site : Site} {first last : Gateway} {taken : List GatewayTransition}
    (restarted : Restarted first) (run : (gateway site).Run first taken last)
    (asked : ∀ past τ rest, taken = past ++ τ :: rest → AnswersAsked site past τ) :
    ∀ past τ rest, taken = past ++ τ :: rest → InOrder site past τ := by
  obtain ⟨-, along⟩ := run.history_of_past (StartsUp site) restarted.startsUp
    (fun _ _ takes here before => before.step takes here) asked
  intro past τ rest split
  have member : τ ∈ taken := by
    rw [split]
    simp
  exact (along past τ rest split).inOrder (run.takes τ member)

/-- **The start-up keeps its order.** The module reports its addresses and answers for the server
only when it was asked before. Then in a run that leaves the messages intact, and in which nothing
else is taken for such a line or for a report of the DHCP mode, the manager connects to the server
only when it has handled the `OK` of the access point, and joins the access point only when a report
brought the configured DHCP mode or the mode has been set. It does not restart the module within
the run. -/
theorem start_up_in_order {site : Site} {first last : PointerGateway}
    {taken : List PointerTransition} (restarted : Restarted first.asRead)
    (run : (pointerGateway site).Run first taken last)
    (asked : ∀ past τ rest, gatewaySteps taken = past ++ τ :: rest → LinesAsked site past τ)
    (intact : ∀ τ ∈ taken, Intact τ) (named : ∀ τ ∈ gatewaySteps taken, LinesNamed site τ) :
    ∀ past τ rest, gatewaySteps taken = past ++ τ :: rest → InOrder site past τ := by
  refine inOrder_of_asked restarted (gateway_run_of_intact run intact) fun past τ rest split => ?_
  have member : τ ∈ gatewaySteps taken := by
    rw [split]
    simp
  exact .of_lines (asked past τ rest split) (named τ member)

/-- The module is connected, and a packet goes to the server, which acknowledges it. -/
theorem start_up_in_order_once : ∃ taken last,
    (pointerGateway someSite).Run (startPointerGateway someSite) taken last ∧
      (∀ past τ rest, gatewaySteps taken = past ++ τ :: rest → InOrder someSite past τ) ∧
      ∃ τ ∈ gatewaySteps taken, reactionIn someSite τ = some (.command .tcpConnect) := by
  obtain ⟨taken, last, run, passed⟩ := (pointerGateway someSite).exists_run_of_passes
    (startPointerGateway someSite) (threads (connecting ++ [frameArrives] ++ packetSent))
    (fun taken _ =>
      decide (∀ (i : ℕ) (inside : i < (gatewaySteps taken).length),
        LinesAsked someSite ((gatewaySteps taken).take i) (gatewaySteps taken)[i]) &&
      taken.all (fun τ => Intact τ) &&
      (gatewaySteps taken).all (fun τ => LinesNamed someSite τ) &&
      decide (∃ τ ∈ gatewaySteps taken, reactionIn someSite τ = some (.command .tcpConnect)))
    (by decide +kernel)
  simp only [Bool.and_eq_true, List.all_eq_true, decide_eq_true_iff] at passed
  obtain ⟨⟨⟨asked, intact⟩, named⟩, connects⟩ := passed
  have restarted : Restarted (startPointerGateway someSite).asRead := by
    rw [asRead_startPointerGateway]
    exact startGateway_restarted someSite
  exact ⟨taken, last, run,
    start_up_in_order restarted run (forall_split_iff.mpr asked) intact named, connects⟩

/-- What the module sends. -/
def receivedIn (taken : List GatewayTransition) : List UInt8 :=
  taken.flatMap fun τ =>
    match τ.event with
    | .wifi (.read bytes) => bytes
    | _ => []

/-- From the restart of the module to the access point. It answers with a line that is not the
report of its addresses but is as long, and with `OK`. -/
def misread : List GatewayEvent :=
  exchanged [lineOf "OK"] ++ exchanged [lineOf "OK"] ++ exchanged [lineOf "OK"] ++
    exchanged [lineOf "OK"] ++ exchanged [lineOf "+CWMODE_DEF:1", lineOf "OK"] ++
    exchanged [lineOf "+CWDHCP_DEF:3", lineOf "OK"] ++
    exchanged [lineOf "+CIPSTA_DEFX", lineOf "OK"]

/-- **A line that is misread leads past the access point.** The module sends no line that it was not
asked for. Behind `CMD_CONNECT_AP` names are compared over ten letters, so `+CIPSTA_DEFX` is taken
for the report of the addresses; the manager takes the `OK` behind it for the answer to the query,
and connects to the server. All messages are handled as they were sent. -/
theorem misread_line_leads_past_join : ∃ taken last,
    (pointerGateway someSite).Run (startPointerGateway someSite) taken last ∧
      (∀ τ ∈ taken, Intact τ) ∧
      (∀ name ∈ [text "+CWJAP_DEF:", text "+CIPSTA_DEF:", text "+IPD"],
        ¬ name <:+: receivedIn (gatewaySteps taken)) ∧
      ¬ ∀ past τ rest, gatewaySteps taken = past ++ τ :: rest → InOrder someSite past τ := by
  obtain ⟨taken, last, run, passed⟩ := (pointerGateway someSite).exists_run_of_passes
    (startPointerGateway someSite) (threads misread)
    (fun taken _ => (∀ τ ∈ taken, Intact τ) ∧
      (∀ name ∈ [text "+CWJAP_DEF:", text "+CIPSTA_DEF:", text "+IPD"],
        ¬ name <:+: receivedIn (gatewaySteps taken)) ∧
      (∃ τ ∈ gatewaySteps taken, reactionIn someSite τ = some (.command .tcpConnect)) ∧
      ∀ τ ∈ gatewaySteps taken, ¬ Acknowledges someSite .connectWifi τ) (by decide +kernel)
  obtain ⟨intact, plain, ⟨τ, member, connects⟩, notJoined⟩ := of_decide_eq_true passed
  refine ⟨taken, last, run, intact, plain, fun inOrder => ?_⟩
  obtain ⟨past, rest, split⟩ := List.append_of_mem member
  obtain ⟨σ, earlier, joins⟩ := (inOrder past τ rest split).tcpConnect connects
  exact notJoined σ (by rw [split]; exact List.mem_append_left _ earlier) joins

end WhaleShark

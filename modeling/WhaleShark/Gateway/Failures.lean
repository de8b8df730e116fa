import WhaleShark.Gateway.StopAndWait

/-!
# How many failures there are before a reboot

`NetworkManagerThread` counts some failures in `retryCount` and reboots at the sixth, and for some
others it reboots at once. The rest it does not count: it closes the connection and
goes on, or does nothing (`Unheeded`). So the failures since the last `SMSG_WIFI_OK` are the counted
ones and the unheeded ones (`Counted`), and there are at most `RETRY_MAX + 1` of them as long as one
of them at most is unheeded (`failures_are_bounded`).

A module that falls silent while there is a connection times out at every command, and each time
out is unheeded: the connection is closed again and again, and nothing reboots
(`silent_module_is_not_rebooted`). Under `SMSG_WIFI_ERROR` a failure to close it does reboot.
-/

set_option autoImplicit false

namespace WhaleShark

open Foundations Network

/-- `SMSG_WIFI_ERROR`, `SMSG_WIFI_FAIL`, `SMSG_WIFI_TIMEOUT` -/
def isFailure : Smsg → Bool
  | .wifiError => true
  | .wifiFail => true
  | .wifiTimeout => true
  | _ => false

/-- The message code that a step handles. -/
def codeIn (τ : GatewayTransition) : Option Smsg := (handledIn τ).map MqData.messge

/-- The step handles a failure. -/
def Fails (τ : GatewayTransition) : Prop := ∃ code, codeIn τ = some code ∧ isFailure code = true

/-- It handles a failure that is neither counted nor followed by a reboot. -/
def Unheeded (site : Site) (τ : GatewayTransition) : Prop :=
  ∃ message, handledIn τ = some message ∧ isFailure message.messge = true ∧
    Reaction.again message.messge (site.laid message.data).1 = none ∧
    τ.source.reactionTo site message ≠ .reboot

instance (τ : GatewayTransition) : Decidable (Fails τ) :=
  decidable_of_iff ((codeIn τ).any isFailure = true) (by simp [Fails, Option.any_eq_true])

instance (site : Site) (τ : GatewayTransition) : Decidable (Unheeded site τ) :=
  decidable_of_iff
    ((handledIn τ).any (fun message => decide (isFailure message.messge = true ∧
      Reaction.again message.messge (site.laid message.data).1 = none ∧
      τ.source.reactionTo site message ≠ .reboot)) = true)
    (by simp [Unheeded, Option.any_eq_true])

/-- How many steps since the last `SMSG_WIFI_OK` are such steps. -/
def sinceOk (such : GatewayTransition → Prop) [DecidablePred such]
    (past : List GatewayTransition) : ℕ :=
  past.foldl (fun n τ => if codeIn τ = some .wifiOk then 0 else if such τ then n + 1 else n) 0

/-- The failures since the last `SMSG_WIFI_OK`. -/
def failures (past : List GatewayTransition) : ℕ := sinceOk Fails past

/-- Those that were neither counted nor followed by a reboot. -/
def unheeded (site : Site) (past : List GatewayTransition) : ℕ := sinceOk (Unheeded site) past

section SinceOk

variable {such : GatewayTransition → Prop} [DecidablePred such] {past : List GatewayTransition}
  {τ : GatewayTransition}

theorem sinceOk_concat : sinceOk such (past ++ [τ]) =
    if codeIn τ = some .wifiOk then 0
    else if such τ then sinceOk such past + 1 else sinceOk such past := by
  rw [sinceOk, List.foldl_append, List.foldl_cons, List.foldl_nil, sinceOk]

theorem sinceOk_of_ok (ok : codeIn τ = some .wifiOk) : sinceOk such (past ++ [τ]) = 0 := by
  rw [sinceOk_concat, if_pos ok]

theorem sinceOk_of_such (notOk : codeIn τ ≠ some .wifiOk) (here : such τ) :
    sinceOk such (past ++ [τ]) = sinceOk such past + 1 := by
  rw [sinceOk_concat, if_neg notOk, if_pos here]

theorem sinceOk_of_not (notOk : codeIn τ ≠ some .wifiOk) (not_here : ¬ such τ) :
    sinceOk such (past ++ [τ]) = sinceOk such past := by
  rw [sinceOk_concat, if_neg notOk, if_neg not_here]

end SinceOk

/-- Unless the gateway has rebooted, there were at most `RETRY_MAX + 1` failures. -/
def Bounded (past : List GatewayTransition) (g : Gateway) : Prop :=
  g.rebooted = false → failures past ≤ retryMax.toNat + 1

/-! ## One step -/

/-- The failures are those that `retryCount` counts and the unheeded ones. -/
structure Counted (site : Site) (past : List GatewayTransition) (g : Gateway) : Prop where
  sum : failures past = unheeded site past + g.manager.retryCount.toNat
  few : g.manager.retryCount.toNat ≤ retryMax.toNat

theorem ne_wifiOk_of_isFailure {code : Smsg} (failure : isFailure code = true) :
    code ≠ .wifiOk := by
  rintro rfl
  cases failure

section Step

variable {site : Site} {past : List GatewayTransition} {τ : GatewayTransition}

theorem codeIn_eq {message : MqData} (handled : handledIn τ = some message) :
    codeIn τ = some message.messge := by
  rw [codeIn, handled, Option.map_some]

theorem fails_iff {message : MqData} (handled : handledIn τ = some message) :
    Fails τ ↔ isFailure message.messge = true := by
  rw [Fails, codeIn_eq handled]
  simp

theorem unheeded_iff {message : MqData} (handled : handledIn τ = some message) :
    Unheeded site τ ↔ isFailure message.messge = true ∧
      Reaction.again message.messge (site.laid message.data).1 = none ∧
      τ.source.reactionTo site message ≠ .reboot := by
  rw [Unheeded, handled]
  simp

/-- A step that handles no failure and no `SMSG_WIFI_OK` counts nothing. -/
theorem Counted.idle (before : Counted site past τ.source)
    (code : codeIn τ = none ∨ codeIn τ = some .tcpSendData)
    (retryCount : τ.target.manager.retryCount = τ.source.manager.retryCount) :
    Counted site (past ++ [τ]) τ.target := by
  have notOk : codeIn τ ≠ some .wifiOk := by
    rcases code with none_ | data
    · simp [none_]
    · simp [data]
  have notFails : ¬ Fails τ := by
    rintro ⟨c, some_, failure⟩
    rcases code with none_ | data
    · rw [none_] at some_
      cases some_
    · rw [data] at some_
      cases some_
      cases failure
  have heeded : ¬ Unheeded site τ := by
    rintro ⟨message, handled, failure, -⟩
    exact notFails ((fails_iff handled).mpr failure)
  refine ⟨?_, ?_⟩
  · rw [failures, sinceOk_of_not notOk notFails, unheeded, sinceOk_of_not notOk heeded, retryCount]
    exact before.sum
  · rw [retryCount]
    exact before.few

/-- A failure that is counted, and not the one too many. -/
theorem Counted.retried (before : Counted site past τ.source) {message : MqData}
    (handled : handledIn τ = some message) (failure : isFailure message.messge = true)
    {retried : Reaction}
    (again : Reaction.again message.messge (site.laid message.data).1 = some retried)
    (few : τ.source.manager.retryCount < retryMax)
    (retryCount : τ.target.manager.retryCount = τ.source.manager.retryCount + 1) :
    Counted site (past ++ [τ]) τ.target := by
  have notOk : codeIn τ ≠ some .wifiOk := by
    rw [codeIn_eq handled]
    exact fun ok => ne_wifiOk_of_isFailure failure (Option.some.inj ok)
  have heeded : ¬ Unheeded site τ := by
    rw [unheeded_iff handled, again]
    rintro ⟨-, none_, -⟩
    cases none_
  have more : τ.target.manager.retryCount.toNat = τ.source.manager.retryCount.toNat + 1 := by
    have bound : τ.source.manager.retryCount.toNat < 5 := UInt8.lt_iff_toNat_lt.mp few
    rw [retryCount, UInt8.toNat_add, UInt8.toNat_one]
    omega
  refine ⟨?_, ?_⟩
  · rw [failures, sinceOk_of_such notOk ((fails_iff handled).mpr failure), unheeded,
      sinceOk_of_not notOk heeded, more, ← Nat.add_assoc]
    exact congrArg (· + 1) before.sum
  · rw [more]
    exact UInt8.lt_iff_toNat_lt.mp few

/-- A failure that is unheeded. -/
theorem Counted.notHeeded (before : Counted site past τ.source) {message : MqData}
    (handled : handledIn τ = some message) (failure : isFailure message.messge = true)
    (here : Unheeded site τ)
    (retryCount : τ.target.manager.retryCount = τ.source.manager.retryCount) :
    Counted site (past ++ [τ]) τ.target := by
  have notOk : codeIn τ ≠ some .wifiOk := by
    rw [codeIn_eq handled]
    exact fun ok => ne_wifiOk_of_isFailure failure (Option.some.inj ok)
  refine ⟨?_, ?_⟩
  · rw [failures, sinceOk_of_such notOk ((fails_iff handled).mpr failure), unheeded,
      sinceOk_of_such notOk here, retryCount, Nat.add_right_comm]
    exact congrArg (· + 1) before.sum
  · rw [retryCount]
    exact before.few

end Step

/-- A failure that is counted is tried again, or reboots the gateway. -/
theorem reaction_of_again {messge : Smsg} {networkStatus : Option NetworkStatus}
    {info : List UInt8} {tcpOn : FunctionalState} {retryCount : UInt8} {retried : Reaction}
    (failure : isFailure messge = true)
    (again : Reaction.again messge networkStatus = some retried) :
    reaction messge networkStatus info tcpOn retryCount =
      if retryCount < retryMax then retried else .reboot := by
  cases messge with
  | wifiOk => cases failure
  | tcpSendData => cases failure
  | _ => simp only [reaction, again]

theorem retryCount_behindPlc (g : Gateway) (plc : Plc.PlcThread) (made : Option Plc.Packetised) :
    (g.behindPlc plc made).manager.retryCount = g.manager.retryCount := by
  unfold Gateway.behindPlc
  split
  · rfl
  · rw [Gateway.manager_sendData]
    split <;> rfl

/-- **A step keeps the sum, as long as it does not reboot the gateway.** -/
theorem Counted.step {site : Site} {past : List GatewayTransition} {τ : GatewayTransition}
    (takes : (gateway site).Takes τ) (before : Counted site past τ.source)
    (runs : τ.target.rebooted = false) : Counted site (past ++ [τ]) τ.target := by
  obtain ⟨g, e, o, g'⟩ := τ
  have step : GatewayStep site g e g' := (gateway_cases takes).2
  cases step with
  | wifi => exact before.idle (.inl rfl) (by rw [Gateway.manager_behindWifi])
  | plc => exact before.idle (.inl rfl) (retryCount_behindPlc _ _ _)
  | responseTimeout => cases runs
  | @handle message queue popped =>
      have handled : handledIn ⟨g, .handle, o, Gateway.handle site
          { g with networkManagerMq := queue } message⟩ = some message := handledIn_handle popped
      have noReboot : g.reactionTo site message ≠ .reboot := by
        intro reboots
        rw [Gateway.rebooted_handle] at runs
        simp only [Bool.or_eq_false_iff, decide_eq_false_iff_not] at runs
        exact runs.2 reboots
      have behind := Gateway.retryCount_handle site { g with networkManagerMq := queue } message
      by_cases failure : isFailure message.messge = true
      · have notOk := ne_wifiOk_of_isFailure failure
        cases again : Reaction.again message.messge (site.laid message.data).1 with
        | none =>
            refine before.notHeeded handled failure
              ((unheeded_iff handled).mpr ⟨failure, again, noReboot⟩) (behind.trans ?_)
            simp [retryCountBehind, notOk, again]
        | some retried =>
            have few : g.manager.retryCount < retryMax := by
              by_contra many
              refine noReboot ?_
              rw [Gateway.reactionTo, reaction_of_again failure again, if_neg many]
            refine before.retried handled failure again few (behind.trans ?_)
            simp [retryCountBehind, notOk, again]
      · cases code : message.messge with
        | wifiOk =>
            have ok := (codeIn_eq handled).trans (congrArg some code)
            have zero : (Gateway.handle site { g with networkManagerMq := queue }
                message).manager.retryCount = 0 := by
              rw [behind, code]
              rfl
            refine ⟨?_, ?_⟩
            · rw [failures, sinceOk_of_ok ok, unheeded, sinceOk_of_ok ok, zero]
              rfl
            · rw [zero]
              exact Nat.zero_le _
        | tcpSendData =>
            refine before.idle (.inr ((codeIn_eq handled).trans (congrArg some code)))
              (behind.trans ?_)
            rw [code]
            rfl
        | wifiError => simp [code, isFailure] at failure
        | wifiFail => simp [code, isFailure] at failure
        | wifiTimeout => simp [code, isFailure] at failure

/-! ## A run -/

/-- One failure at most is unheeded before the next `SMSG_WIFI_OK`. -/
def OneUnheeded (site : Site) (past : List GatewayTransition) (τ : GatewayTransition) : Prop :=
  Unheeded site τ → unheeded site past = 0

theorem unheeded_le {site : Site} {past : List GatewayTransition} {τ : GatewayTransition}
    (few : unheeded site past ≤ 1) (one : OneUnheeded site past τ) :
    unheeded site (past ++ [τ]) ≤ 1 := by
  by_cases ok : codeIn τ = some .wifiOk
  · rw [unheeded, sinceOk_of_ok ok]
    exact Nat.zero_le 1
  · by_cases here : Unheeded site τ
    · have none_ : sinceOk (Unheeded site) past = 0 := one here
      rw [unheeded, sinceOk_of_such ok here, none_]
    · rw [unheeded, sinceOk_of_not ok here]
      exact few

/-- **Failures are bounded by a reboot.** In a run in which, between one `SMSG_WIFI_OK` and the next,
at most one failure is neither counted nor followed by a reboot, there are never more than
`RETRY_MAX + 1` failures since the last `SMSG_WIFI_OK` without a reboot. -/
theorem failures_are_bounded {site : Site} {first last : Gateway} {taken : List GatewayTransition}
    (fresh : first.manager.retryCount = 0) (run : (gateway site).Run first taken last)
    (one : ∀ past τ rest, taken = past ++ τ :: rest → OneUnheeded site past τ) :
    Machine.Throughout Bounded taken last := by
  have initial : Counted site [] first := ⟨by rw [fresh]; rfl, by rw [fresh]; exact Nat.zero_le _⟩
  obtain ⟨reached, along⟩ := run.history_of_past
    (fun past g => (g.rebooted = false → Counted site past g) ∧ unheeded site past ≤ 1)
    ⟨fun _ => initial, Nat.zero_le 1⟩
    (fun past τ takes here before =>
      ⟨(before.1 (gateway_cases takes).1).step takes, unheeded_le before.2 here⟩) one
  have bounded {past : List GatewayTransition} {g : Gateway}
      (here : (g.rebooted = false → Counted site past g) ∧ unheeded site past ≤ 1) :
      Bounded past g := by
    intro runs
    obtain ⟨sum, few⟩ := here.1 runs
    have one := here.2
    omega
  exact ⟨bounded reached, fun past τ rest split => bounded (along past τ rest split)⟩

instance (site : Site) (past : List GatewayTransition) (τ : GatewayTransition) :
    Decidable (OneUnheeded site past τ) :=
  inferInstanceAs (Decidable (Unheeded site τ → unheeded site past = 0))

instance (past : List GatewayTransition) (g : Gateway) : Decidable (Bounded past g) :=
  inferInstanceAs (Decidable (g.rebooted = false → failures past ≤ retryMax.toNat + 1))

/-- A command is transmitted, and the module does not answer it. -/
def timedOut : List GatewayEvent :=
  [.wifi .post, .wifi .recv, .wifi .act, .wifi .finish, .wifi .wifiTimeout, .handle]

/-- The module does not answer `CIPSEND`. -/
theorem failures_are_bounded_once : ∃ taken last,
    (gateway someSite).Run (startGateway someSite) taken last ∧
      Machine.Throughout Bounded taken last ∧ failures taken = 1 := by
  obtain ⟨taken, last, run, passed⟩ := (gateway someSite).exists_run_of_passes
    (startGateway someSite) (connecting ++ [frameArrives, .handle] ++ timedOut)
    (fun taken _ => decide (∀ (i : ℕ) (inside : i < taken.length),
      OneUnheeded someSite (taken.take i) taken[i]) && decide (failures taken = 1))
    (by decide +kernel)
  rw [Bool.and_eq_true, decide_eq_true_iff, decide_eq_true_iff] at passed
  exact ⟨taken, last, run, failures_are_bounded rfl run (forall_split_iff.mpr passed.1), passed.2⟩

/-- **A silent module is not rebooted.** The module falls silent behind the connection: it does not
answer `CIPSEND`, nor the command to close the connection, which the manager then issues again at
each time out. -/
theorem silent_module_is_not_rebooted : ∃ taken last,
    (gateway someSite).Run (startGateway someSite) taken last ∧
      ¬ Machine.Throughout Bounded taken last := by
  obtain ⟨taken, last, run, passed⟩ := (gateway someSite).exists_run_of_passes
    (startGateway someSite)
    (connecting ++ [frameArrives, .handle] ++ (List.replicate 7 timedOut).flatten)
    (fun taken last => ¬ Bounded taken last) (by decide +kernel)
  exact ⟨taken, last, run, fun bounded => of_decide_eq_true passed bounded.1⟩

end WhaleShark

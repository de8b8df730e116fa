import WhaleShark.Foundations.Ledgers
import WhaleShark.Gateway.WifiThread

/-!
# Commands that are stored and commands that are written

A command that has been stored waits until the thread passes it to `WifiTxData`: while its call
still has to send `SMSG_TX_DATA`, while that flag is pending, and while the thread has got the
flag and not yet acted on it. The commands stored so far should be those written so far, and the one
that waits: the ledger `commands` should be exact. Then no pending command was dropped or
overwritten, what was written is what was stored, and nothing was written twice.

A step keeps the ledger exactly if it is `InTurn` (`balanced_iff`): no command is stored while one
waits, the thread never acts on both flags at once, and it does not clear the length of a command
that was stored while it was writing the one before. So the ledger is exact throughout a run
exactly if all steps are in turn (`nothing_lost_iff`). The firmware does not see to it: in
`command_is_lost` a byte arrives while the thread reads and a command has just been stored.
-/

set_option autoImplicit false

namespace WhaleShark.Network

open Foundations

/-! ## The ledger of commands -/

theorem postResponse_tx (w : WifiInfo) : (postResponse w).1.tx = w.tx := by
  simp only [postResponse]
  split <;> rfl

/-- The thread has got `SMSG_TX_DATA`. -/
def Doing.txData : Doing → Bool
  | .received events => events.txData
  | _ => false

/-- A stored command waits to be written. -/
def WifiThread.waiting (t : WifiThread) : Bool := t.calling || t.event.txData || t.doing.txData

/-- The commands that wait. -/
def WifiThread.outstanding (t : WifiThread) : List (List UInt8) :=
  if t.waiting then [t.wifi.tx.command] else []

/-- The command that a step stores. -/
def storedCommand (τ : WifiTransition) : Option (List UInt8) :=
  match τ.event with
  | .store _ => some τ.target.wifi.tx.command
  | _ => none

/-- The command that a step writes. -/
def writtenCommand (τ : WifiTransition) : Option (List UInt8) :=
  match τ.output with
  | .written bytes => some bytes
  | _ => none

/-- The commands: a call stores them, the thread writes them, and between that they wait. -/
def commands : Machine.Ledger WifiThread WifiEvent WifiOutput (List UInt8) where
  enters := storedCommand
  leaves := writtenCommand
  inside := WifiThread.outstanding

/-- The step does not run into the step of another. -/
def InTurn (τ : WifiTransition) : Prop :=
  match τ.event with
  | .store _ => τ.source.waiting = false
  | .act => τ.source.doing ≠ .received ⟨true, true⟩
  | .finish => τ.source.waiting = false ∨ τ.source.wifi.tx.command = []
  | _ => True

theorem writtenCommand_postResponse (t t' : WifiThread) :
    writtenCommand ⟨t, .read [], (postResponse t.wifi).2, t'⟩ = none := by
  unfold writtenCommand postResponse
  cases responseMessage t.wifi.networkInfoData.response <;> rfl

/-- How many of the places are taken in which a command can wait. -/
def WifiThread.places (t : WifiThread) : ℕ :=
  t.calling.toNat + t.event.txData.toNat + t.doing.txData.toNat

/-- At most one command waits. -/
def OneWaits (t : WifiThread) : Prop := t.places ≤ 1

/-! ## One step -/

/-- A flag that is sent waits with the object or with the thread. -/
theorem rtEventSend_places (t : WifiThread) (set : EventSet) (new : set.txData = true →
    t.event.txData = false ∧ t.doing.txData = false) :
    (rtEventSend t set).event.txData.toNat + (rtEventSend t set).doing.txData.toNat =
      t.event.txData.toNat + t.doing.txData.toNat + set.txData.toNat := by
  unfold rtEventSend
  cases sent : set.txData with
  | false =>
      split
      · rename_i suspended
        simp [suspended, Doing.txData, EventSet.empty]
      · simp
  | true =>
      obtain ⟨quiet, idle⟩ := new sent
      split
      · rename_i suspended
        simp [suspended, quiet, Doing.txData, EventSet.empty]
      · simp [quiet, idle]

/-- A flag moves from the object to the thread. -/
theorem rtEventRecv_places (t : WifiThread) (asking : t.doing = .asking) :
    (rtEventRecv t).event.txData.toNat + (rtEventRecv t).doing.txData.toNat =
      t.event.txData.toNat + t.doing.txData.toNat := by
  unfold rtEventRecv
  split
  · rename_i none_
    simp [asking, Doing.txData]
  · simp [asking, Doing.txData, EventSet.empty]

theorem waiting_iff (t : WifiThread) : t.waiting = true ↔ 0 < t.places := by
  unfold WifiThread.waiting WifiThread.places
  cases t.calling <;> cases t.event.txData <;> cases t.doing.txData <;> simp

theorem outstanding_eq (t : WifiThread) :
    t.outstanding = if 0 < t.places then [t.wifi.tx.command] else [] := by
  simp only [WifiThread.outstanding, waiting_iff]

/-- Where as many commands wait in the same buffer, the same commands wait. -/
theorem outstanding_congr {t t' : WifiThread} (places : t'.places = t.places)
    (tx : t'.wifi.tx = t.wifi.tx) : t'.outstanding = t.outstanding := by
  rw [outstanding_eq, outstanding_eq, places, tx]

/-- A step that moves a command from one place to another, or does not touch it. -/
theorem balanced_of_kept {τ : WifiTransition} (stores : storedCommand τ = none)
    (writes : writtenCommand τ = none) (places : τ.target.places = τ.source.places)
    (tx : τ.target.wifi.tx = τ.source.wifi.tx) : commands.Balanced τ :=
  (Machine.Ledger.balanced_of_same (L := commands) stores writes).mpr (outstanding_congr places tx)

theorem readBytes_keeps (env : Surroundings) (t : WifiThread) (bytes : List UInt8) :
    (readBytes env t bytes).1.places = t.places ∧
      (readBytes env t bytes).1.wifi.tx = t.wifi.tx :=
  ⟨rfl, (parserWifiData_keeps env (t.filled bytes) _).tx⟩

/-- A call may store when nothing waits. -/
theorem balanced_store (set : CommandSettings) (t : WifiThread) (call : Call) :
    commands.Balanced ⟨t, .store call, .nothing,
        { t with wifi := t.wifi.call set call, calling := true }⟩ ↔
      t.waiting = false := by
  rw [Machine.Ledger.balanced_of_enters (L := commands) rfl rfl]
  simp only [commands, WifiThread.outstanding]
  cases t.waiting <;> simp [WifiThread.waiting]

/-- The thread may go and read when it has not got `SMSG_TX_DATA` as well. -/
theorem balanced_receive {t : WifiThread} {events : EventSet} (one : OneWaits t)
    (got : t.doing = .received events) (t' : WifiThread) (calling : t'.calling = t.calling)
    (event : t'.event = t.event) (reading : t'.doing = .reading) (tx : t'.wifi.tx = t.wifi.tx) :
    (commands.Balanced ⟨t, .act, .nothing, t'⟩ ↔ events.txData = false) ∧
      (events.txData = false → t'.places = t.places) := by
  have had : t.places = t.calling.toNat + t.event.txData.toNat + events.txData.toNat := by
    rw [WifiThread.places, got, Doing.txData]
  have has : t'.places = t.calling.toNat + t.event.txData.toNat := by
    simp [WifiThread.places, calling, event, reading, Doing.txData]
  cases dropped : events.txData with
  | false =>
      have places : t'.places = t.places := by
        rw [had, has, dropped, Bool.toNat_false, Nat.add_zero]
      exact ⟨iff_of_true (balanced_of_kept rfl rfl places tx) rfl, fun _ => places⟩
  | true =>
      rw [OneWaits, had, dropped, Bool.toNat_true] at one
      have before : 0 < t.places := by rw [had, dropped, Bool.toNat_true]; omega
      have after : ¬ 0 < t'.places := by rw [has]; omega
      refine ⟨iff_of_false ?_ (by simp), fun quiet => by simp at quiet⟩
      rw [Machine.Ledger.balanced_of_same (L := commands) rfl rfl]
      simp [commands, outstanding_eq, before, after]

/-- The thread may always write. -/
theorem balanced_transmit {t : WifiThread} {events : EventSet} (one : OneWaits t)
    (got : t.doing = .received events) (flag : events.txData = true) (t' : WifiThread)
    (calling : t'.calling = t.calling) (event : t'.event = t.event)
    (written : t'.doing = .written) :
    commands.Balanced ⟨t, .act, .written t.wifi.tx.command, t'⟩ ∧ t'.places = 0 := by
  have had : t.places = t.calling.toNat + t.event.txData.toNat + 1 := by
    rw [WifiThread.places, got, Doing.txData, flag, Bool.toNat_true]
  have has : t'.places = t.calling.toNat + t.event.txData.toNat := by
    simp [WifiThread.places, calling, event, written, Doing.txData]
  rw [OneWaits, had] at one
  have before : 0 < t.places := by omega
  have after : t'.places = 0 := by omega
  refine ⟨(Machine.Ledger.balanced_of_leaves (L := commands) rfl rfl).mpr ?_, after⟩
  simp [commands, outstanding_eq, before, after]

/-- The thread may clear the length when nothing waits, or nothing that has one. -/
theorem balanced_finish {t t' : WifiThread} (places : t'.places = t.places)
    (cleared : t'.wifi.tx.command = []) :
    commands.Balanced ⟨t, .finish, .nothing, t'⟩ ↔ t.waiting = false ∨ t.wifi.tx.command = [] := by
  rw [Machine.Ledger.balanced_of_same (L := commands) rfl rfl]
  simp only [commands]
  rw [outstanding_eq, outstanding_eq, places, cleared, ← Bool.not_eq_true, waiting_iff]
  by_cases waits : 0 < t.places
  · simp [waits]
  · simp [waits]

/-- Sending `SMSG_TX_DATA` for a stored command. -/
theorem places_post {t : WifiThread} (one : OneWaits t) (stored : t.calling = true) :
    (rtEventSend { t with calling := false } ⟨false, true⟩).places = t.places := by
  rw [OneWaits, WifiThread.places, stored, Bool.toNat_true] at one
  have quiet : t.event.txData = false ∧ t.doing.txData = false := by
    constructor <;> rw [← Bool.toNat_eq_zero] <;> omega
  have kept := rtEventSend_places { t with calling := false } ⟨false, true⟩ (fun _ => quiet)
  simp only [Bool.toNat_true] at kept
  simp only [WifiThread.places, calling_rtEventSend, Bool.toNat_false, stored, Bool.toNat_true]
  omega

theorem places_indicate (t : WifiThread) :
    (rtEventSend t ⟨true, false⟩).places = t.places := by
  have kept := rtEventSend_places t ⟨true, false⟩ (fun sent => by simp at sent)
  simp only [Bool.toNat_false] at kept
  simp only [WifiThread.places, calling_rtEventSend]
  omega

theorem keeps_recv {t : WifiThread} (asking : t.doing = .asking) :
    (rtEventRecv t).places = t.places ∧ (rtEventRecv t).wifi = t.wifi := by
  have kept := rtEventRecv_places t asking
  refine ⟨?_, wifi_rtEventRecv t⟩
  simp only [WifiThread.places, calling_rtEventRecv]
  omega

/-- **One step.** Where at most one command waits, a step keeps the ledger exactly if it is in
turn, and then at most one command waits again. -/
theorem balanced_iff {env : Surroundings} {τ : WifiTransition} (takes : (wifiThread env).Takes τ)
    (one : OneWaits τ.source) :
    (commands.Balanced τ ↔ InTurn τ) ∧ (InTurn τ → OneWaits τ.target) := by
  obtain ⟨t, e, o, t'⟩ := τ
  have step : WifiStep env t e t' o := wifiThread_cases takes
  change OneWaits t at one
  have onWith (places : t'.places = t.places) : OneWaits t' := by
    rw [OneWaits, places]
    exact one
  have same (stores : storedCommand ⟨t, e, o, t'⟩ = none)
      (writes : writtenCommand ⟨t, e, o, t'⟩ = none) (turn : InTurn ⟨t, e, o, t'⟩)
      (places : t'.places = t.places) (tx : t'.wifi.tx = t.wifi.tx) :
      (commands.Balanced ⟨t, e, o, t'⟩ ↔ InTurn ⟨t, e, o, t'⟩) ∧
        (InTurn ⟨t, e, o, t'⟩ → OneWaits t') :=
    ⟨iff_of_true (balanced_of_kept stores writes places tx) turn, fun _ => onWith places⟩
  cases step with
  | indicate =>
      exact same rfl rfl trivial (places_indicate t) (congrArg WifiInfo.tx (wifi_rtEventSend t _))
  | @store call free =>
      refine ⟨balanced_store env.settings t call, fun quiet => ?_⟩
      have none_ : ¬ 0 < t.places := by rw [← waiting_iff, quiet]; simp
      simp only [OneWaits, WifiThread.places, Bool.toNat_true] at none_ ⊢
      omega
  | post stored =>
      exact same rfl rfl trivial (places_post one stored)
        (congrArg WifiInfo.tx (wifi_rtEventSend _ _))
  | recv asking =>
      obtain ⟨places, wifi⟩ := keeps_recv asking
      exact same rfl rfl trivial places (congrArg WifiInfo.tx wifi)
  | @receive events got rx =>
      obtain ⟨balanced, places⟩ := balanced_receive one got
        { t with
          uRemain := if wifiRxBuff ≤ t.uRemain then 0 else t.uRemain
          doing := .reading } rfl rfl rfl rfl
      have turn : t.doing ≠ .received ⟨true, true⟩ ↔ events.txData = false := by
        obtain ⟨rxData, txData⟩ := events
        cases rx
        simp [got]
      exact ⟨balanced.trans turn.symm, fun inTurn => onWith (places (turn.mp inTurn))⟩
  | @transmit events got rx tx =>
      obtain ⟨balanced, places⟩ := balanced_transmit one got tx { t with doing := .written }
        rfl rfl rfl
      have turn : t.doing ≠ .received ⟨true, true⟩ := by
        rw [got]
        rintro ⟨⟩
        cases rx
      exact ⟨iff_of_true balanced turn, fun _ => (by rw [OneWaits, places]; exact Nat.zero_le 1)⟩
  | @ignore events got rx tx =>
      refine same rfl rfl ?_ ?_ rfl
      · change t.doing ≠ .received ⟨true, true⟩
        rw [got]
        rintro ⟨⟩
        cases rx
      · simp [WifiThread.places, Doing.txData, got, tx]
  | read reading some_ room =>
      obtain ⟨places, tx⟩ := readBytes_keeps env t _
      exact same rfl rfl trivial places tx
  | respond reading =>
      refine same rfl (writtenCommand_postResponse t _) trivial ?_ (postResponse_tx t.wifi)
      simp [WifiThread.places, reading, Doing.txData]
  | finish written =>
      have places : ({ t with
          wifi := { t.wifi with wifiTimeoutTimer := true, tx := { t.wifi.tx with txLen := 0 } }
          doing := .asking } : WifiThread).places = t.places := by
        simp [WifiThread.places, written, Doing.txData]
      exact ⟨balanced_finish places (Block.read_zero_length _ _), fun _ => onWith places⟩
  | wifiTimeout runs => exact same rfl rfl trivial rfl rfl
  | sendTimeout runs => exact same rfl rfl trivial rfl rfl

/-! ## Whole runs -/

/-- **No command is lost exactly while everyone acts in turn.** -/
theorem nothing_lost_iff {env : Surroundings} {first last : WifiThread}
    {taken : List WifiTransition} (run : (wifiThread env).Run first taken last)
    (fresh : Fresh first) :
    Machine.Throughout commands.Exact taken last ↔ ∀ τ ∈ taken, InTurn τ := by
  have places : first.places = 0 := by
    simp [WifiThread.places, fresh.noEvent, fresh.noCall, fresh.asking, EventSet.empty,
      Doing.txData]
  refine run.ledger_iff commands OneWaits InTurn ?_ ?_
    (fun τ takes one => (balanced_iff takes one).1) (fun τ takes one => (balanced_iff takes one).2)
  · simp [commands, outstanding_eq, places]
  · rw [OneWaits, places]
    exact Nat.zero_le 1

/-! ## Two runs -/

/-- A command that is stored while the thread sleeps is written. -/
theorem nothing_lost_iff_echo_off : ∃ taken last, (wifiThread someSurroundings).Run startWifi taken
    last ∧ (Machine.Throughout commands.Exact taken last ↔ ∀ τ ∈ taken, InTurn τ) ∧
      taken.filterMap writtenCommand = [text "ATE0" ++ [cr, lf]] := by
  obtain ⟨taken, last, run, written⟩ := Machine.exists_run_of_passes (wifiThread someSurroundings)
    startWifi [.recv, .store (.sendWifiCommand .echoOff), .post, .act, .finish]
    (fun taken _ => taken.filterMap writtenCommand = [text "ATE0" ++ [cr, lf]]) (by decide +kernel)
  exact ⟨taken, last, run, nothing_lost_iff run startWifi_fresh, of_decide_eq_true written⟩

/-- **The thread has got both flags.** A byte arrives while the thread is at the end of a read, just
after a command was stored; the turn that gets both flags only reads. -/
theorem command_is_lost : ∃ taken last, (wifiThread someSurroundings).Run startWifi taken last ∧
    ¬ Machine.Throughout commands.Exact taken last := by
  obtain ⟨taken, last, run, lost⟩ := Machine.exists_run_of_passes (wifiThread someSurroundings)
    startWifi [.indicate, .recv, .act, .store (.sendWifiCommand .echoOff), .post, .read [cr],
      .indicate, .read [], .recv, .act]
    (fun taken last => ¬ commands.Exact taken last) (by decide +kernel)
  exact ⟨taken, last, run, fun all => of_decide_eq_true lost all.1⟩

end WhaleShark.Network

import WhaleShark.Foundations.Ledgers
import WhaleShark.Server.DayKeys

/-!
# The exchange and the agent's queues

The server publishes to a fanout exchange, which puts a copy of each message into every queue that
is bound to it. The agent declares and binds a queue for each facility, and consumes them all with
one callback. So a message is consumed once for each facility, whichever equipment it is of
(`counted_of_run`), and the points are one for each message exactly when there is one facility and
nothing makes the callback raise (`one_point_each_iff`). With two facilities there are two
(`two_points_are_written`).
-/

set_option autoImplicit false

namespace WhaleShark.Server

open Foundations

/-- The queues bound to the exchange, with their names. When the callback has raised, the connection
is closed, and with it the queues are gone, which are exclusive. -/
structure MqState where
  queues : List (Str × List FacMsg)
  consuming : Bool

inductive MqEvent where
  /-- `basic_publish` -/
  | publishes (body : FacMsg)
  /-- The callback for the first message of a queue, at a time, on what the database then holds. -/
  | consumes (queue meTimestamp : ℕ) (db : Database)

/-- `syncmessage`, up to `start_consuming`, for the facilities of `facilities_info`. -/
def syncmessage (facilities : List (Str × Json)) : MqState :=
  ⟨facilities.map fun facility => (facility.1, []), true⟩

/-- The exchange, the queues and the agent. What is put out is a message with the point that is
written for it. -/
def mqSystem : Machine MqState MqEvent (Option (FacMsg × Point)) where
  step s
    | .publishes body =>
        some ({ s with queues := s.queues.map fun queue => (queue.1, queue.2 ++ [body]) }, none)
    | .consumes i meTimestamp db =>
        match s.queues[i]? with
        | some (name, body :: rest) =>
            match callbackMqreceive meTimestamp body db with
            | some (point, _) =>
                some ({ s with queues := s.queues.set i (name, rest) }, some (body, point))
            | none => some (⟨[], false⟩, none)
        | _ => none

abbrev MqTransition := Transition MqState MqEvent (Option (FacMsg × Point))

/-- The message that a step publishes. -/
def publication (τ : MqTransition) : Option FacMsg :=
  match τ.event with
  | .publishes body => some body
  | .consumes _ _ _ => none

/-- The messages published. -/
def publishedIn (taken : List MqTransition) : List FacMsg := taken.filterMap publication

/-- The messages for which a point was written, with their points. -/
def writtenIn (taken : List MqTransition) : List (FacMsg × Point) :=
  taken.filterMap Transition.output

/-- For each message published one point is written, to the measurement of its equipment. -/
def OnePointEach (taken : List MqTransition) : Prop :=
  ((writtenIn taken).map Prod.fst).Perm (publishedIn taken) ∧
    ∀ w ∈ writtenIn taken, w.2.measurement = w.1.equipmentId

/-- Nothing is left to be consumed. -/
def Settled (s : MqState) : Prop := ∀ queue ∈ s.queues, queue.2 = []

/-- The server publishes such a message for some packet. -/
def FromServer (body : FacMsg) : Prop :=
  ∃ at_ facDaq p, DaqReached facDaq ∧ messageOf at_ facDaq p = some body

theorem FromServer.timed {body : FacMsg} (server : FromServer body) : Timed body.values := by
  obtain ⟨at_, facDaq, p, connection, message⟩ := server
  exact (messageOf_eq connection message).2.1

/-! ## Counting -/

/-- How often a message stands in the queues. -/
def MqState.queued (s : MqState) (body : FacMsg) : ℕ :=
  (s.queues.map fun queue => queue.2.count body).sum

/-- Publishing puts a copy into each queue. -/
theorem sum_count_publish (queues : List (Str × List FacMsg)) (new body : FacMsg) :
    ((queues.map fun queue => (queue.1, queue.2 ++ [new])).map fun queue => queue.2.count body).sum =
      (queues.map fun queue => queue.2.count body).sum + queues.length * [new].count body := by
  induction queues with
  | nil => simp
  | cons queue queues ih =>
      simp only [List.map_cons, List.sum_cons, List.length_cons, List.count_append, ih,
        Nat.add_mul, Nat.one_mul]
      omega

/-- Consuming takes the message out of its queue. -/
theorem sum_count_set {queues : List (Str × List FacMsg)} {i : ℕ} {name : Str} {first : FacMsg}
    {rest : List FacMsg} (here : queues[i]? = some (name, first :: rest)) (body : FacMsg) :
    (queues.map fun queue => queue.2.count body).sum =
      [first].count body +
        ((queues.set i (name, rest)).map fun queue => queue.2.count body).sum := by
  induction queues generalizing i with
  | nil => simp at here
  | cons queue queues ih =>
      cases i with
      | zero =>
          obtain rfl : queue = (name, first :: rest) := by simpa using here
          simp only [List.set_cons_zero, List.map_cons, List.sum_cons]
          rw [← List.singleton_append, List.count_append]
          omega
      | succ i =>
          have later := ih (i := i) (by simpa using here)
          simp only [List.set_cons_succ, List.map_cons, List.sum_cons, later]
          omega

/-! ## The steps -/

/-- The steps: a message is published, or consumed, or its callback raises for want of a time. -/
inductive MqStep (s : MqState) : MqEvent → Option (FacMsg × Point) → MqState → Prop where
  | publishes (body : FacMsg) :
      MqStep s (.publishes body) none
        { s with queues := s.queues.map fun queue => (queue.1, queue.2 ++ [body]) }
  | writes {i meTimestamp : ℕ} {db : Database} {name : Str} {body : FacMsg} {rest : List FacMsg}
      {fields : Dict Str DaqValue} (stands : s.queues[i]? = some (name, body :: rest))
      (time : body.pubTime.isSome = true) :
      MqStep s (.consumes i meTimestamp db) (some (body, ⟨body.equipmentId, fields⟩))
        { s with queues := s.queues.set i (name, rest) }
  | raises {i meTimestamp : ℕ} {db : Database} {name : Str} {body : FacMsg} {rest : List FacMsg}
      (stands : s.queues[i]? = some (name, body :: rest)) (number : body.pubTime.isSome = false) :
      MqStep s (.consumes i meTimestamp db) none ⟨[], false⟩

/-- Every step is one of these, where the queues hold messages of the server. -/
theorem mqSystem_cases {s s' : MqState} {e : MqEvent} {o : Option (FacMsg × Point)}
    (server : ∀ queue ∈ s.queues, ∀ body ∈ queue.2, FromServer body)
    (step : mqSystem.step s e = some (s', o)) : MqStep s e o s' := by
  cases e with
  | publishes body =>
      cases step
      exact .publishes body
  | consumes i meTimestamp db =>
      simp only [mqSystem] at step
      split at step
      · rename_i name body rest stands
        have timed := (server _ (List.mem_of_getElem? stands) body List.mem_cons_self).timed
        obtain ⟨fields, does⟩ := callbackMqreceive_eq meTimestamp timed db
        rw [does] at step
        cases time : body.pubTime with
        | none =>
            rw [time] at step
            cases step
            exact .raises stands (by rw [time]; rfl)
        | some pubTime =>
            rw [time] at step
            cases step
            exact .writes stands (by rw [time]; rfl)
      · cases step

/-- What holds of what was written so far: the agent has raised at a message without a time only,
and until then each message was written or is queued once for each facility. -/
structure Counted (facilities : ℕ) (taken : List MqTransition) (s : MqState) : Prop where
  measured : ∀ w ∈ writtenIn taken, w.2.measurement = w.1.equipmentId ∧ w.1.pubTime.isSome = true
  queued : ∀ queue ∈ s.queues, ∀ body ∈ queue.2, body ∈ publishedIn taken
  copies : s.consuming = true → s.queues.length = facilities ∧
    ∀ body, ((writtenIn taken).map Prod.fst).count body + s.queued body =
      facilities * (publishedIn taken).count body
  raised : s.consuming = false →
    s.queues = [] ∧ ∃ body ∈ publishedIn taken, body.pubTime.isSome = false

theorem queued_syncmessage (facilities : List (Str × Json)) (body : FacMsg) :
    (syncmessage facilities).queued body = 0 := by
  induction facilities with
  | nil => rfl
  | cons facility facilities ih =>
      simp only [MqState.queued, syncmessage, List.map_cons, List.sum_cons] at ih ⊢
      rw [ih]
      rfl

theorem counted_syncmessage (facilities : List (Str × Json)) :
    Counted facilities.length [] (syncmessage facilities) := by
  refine ⟨by simp [writtenIn], ?_, fun _ => ⟨by simp [syncmessage], fun body => ?_⟩, nofun⟩
  · intro queue member body inside
    obtain ⟨facility, -, rfl⟩ := List.mem_map.mp member
    cases inside
  · rw [queued_syncmessage]
    rfl

theorem publishedIn_concat (past : List MqTransition) (τ : MqTransition) :
    publishedIn (past ++ [τ]) = publishedIn past ++ (publication τ).toList := by
  rw [publishedIn, List.filterMap_append, Machine.Ledger.filterMap_singleton_toList, publishedIn]

/-- What is published stays published. -/
theorem mem_publishedIn_append {past : List MqTransition} {body : FacMsg}
    (published : body ∈ publishedIn past) (later : List MqTransition) :
    body ∈ publishedIn (past ++ later) := by
  rw [publishedIn, List.filterMap_append]
  exact List.mem_append_left _ published

theorem writtenIn_concat (past : List MqTransition) (τ : MqTransition) :
    writtenIn (past ++ [τ]) = writtenIn past ++ τ.output.toList := by
  rw [writtenIn, List.filterMap_append, Machine.Ledger.filterMap_singleton_toList, writtenIn]

theorem Counted.step {facilities : ℕ} {past : List MqTransition} {s s' : MqState} {e : MqEvent}
    {o : Option (FacMsg × Point)} (step : MqStep s e o s') (before : Counted facilities past s) :
    Counted facilities (past ++ [⟨s, e, o, s'⟩]) s' := by
  cases step with
  | publishes body =>
      refine ⟨?_, ?_, fun consuming => ?_, fun raised => ?_⟩
      · rw [writtenIn_concat, Option.toList_none, List.append_nil]
        exact before.measured
      · intro queue member other inside
        obtain ⟨old, stands, rfl⟩ := List.mem_map.mp member
        rcases List.mem_append.mp inside with there | new
        · exact mem_publishedIn_append (before.queued old stands other there) _
        · rw [publishedIn_concat]
          exact List.mem_append_right _ new
      · obtain ⟨number, copies⟩ := before.copies consuming
        refine ⟨by rw [List.length_map, number], fun other => ?_⟩
        have kept := copies other
        have grown := sum_count_publish s.queues body other
        rw [number] at grown
        rw [MqState.queued] at kept ⊢
        rw [publishedIn_concat, writtenIn_concat, Option.toList_none, List.append_nil, grown,
          ← add_assoc, kept, List.count_append, Nat.mul_add]
        rfl
      · obtain ⟨gone, lost, member, number⟩ := before.raised raised
        exact ⟨by rw [gone]; rfl, lost, mem_publishedIn_append member _, number⟩
  | @writes i meTimestamp db name body rest fields stands time =>
      refine ⟨?_, ?_, fun consuming => ?_, fun raised => ?_⟩
      · intro w member
        rw [writtenIn_concat] at member
        rcases List.mem_append.mp member with old | new
        · exact before.measured w old
        · rw [List.mem_singleton.mp new]
          exact ⟨rfl, time⟩
      · intro queue member other inside
        refine mem_publishedIn_append ?_ _
        rcases List.mem_or_eq_of_mem_set member with old | rfl
        · exact before.queued queue old other inside
        · exact before.queued _ (List.mem_of_getElem? stands) other (List.mem_cons_of_mem _ inside)
      · obtain ⟨number, copies⟩ := before.copies consuming
        refine ⟨by rw [List.length_set, number], fun other => ?_⟩
        have kept := copies other
        have shrunk := sum_count_set stands other
        rw [MqState.queued] at kept ⊢
        rw [publishedIn_concat, writtenIn_concat, List.map_append, List.count_append]
        simp only [publication, Option.toList_none, Option.toList_some, List.append_nil,
          List.map_singleton]
        omega
      · rw [(before.raised raised).1] at stands
        cases stands
  | @raises i meTimestamp db name body rest stands number =>
      have published : body ∈ publishedIn past :=
        before.queued _ (List.mem_of_getElem? stands) body List.mem_cons_self
      refine ⟨?_, nofun, nofun, fun _ => ⟨rfl, body, mem_publishedIn_append published _, number⟩⟩
      rw [writtenIn_concat, Option.toList_none, List.append_nil]
      exact before.measured

/-- The agent consumes as long as every message has a time. -/
theorem Counted.consuming {facilities : ℕ} {taken : List MqTransition} {s : MqState}
    (counted : Counted facilities taken s)
    (timed : ∀ body ∈ publishedIn taken, body.pubTime.isSome = true) : s.consuming = true := by
  by_contra raised
  obtain ⟨-, body, member, number⟩ := counted.raised (Bool.not_eq_true _ ▸ raised)
  exact Bool.false_ne_true (number.symm.trans (timed body member))

/-! ## A run -/

/-- **A message is consumed once for each facility**, or stands in a queue, until the callback
raises. -/
theorem counted_of_run {facilities : List (Str × Json)} {taken : List MqTransition} {last : MqState}
    (run : mqSystem.Run (syncmessage facilities) taken last)
    (server : ∀ body ∈ publishedIn taken, FromServer body) :
    Counted facilities.length taken last := by
  have known : ∀ past τ rest, taken = past ++ τ :: rest →
      ∀ body ∈ publishedIn past, FromServer body := by
    intro past τ rest split body member
    rw [split] at server
    exact server body (mem_publishedIn_append member _)
  have along := run.history_of_past (Counted facilities.length) (counted_syncmessage facilities) ?_
    known
  · exact along.1
  · intro past τ takes known before
    refine before.step (mqSystem_cases (fun queue member body inside => ?_) takes)
    exact known body (before.queued queue member body inside)

theorem queued_of_settled {s : MqState} (settled : Settled s) (body : FacMsg) :
    s.queued body = 0 := by
  rw [MqState.queued, List.sum_eq_zero_iff_forall_eq_nat]
  intro n member
  obtain ⟨queue, stands, rfl⟩ := List.mem_map.mp member
  rw [settled queue stands, List.count_nil]

/-- **There is one point for each message exactly if there is one facility and no message without
a time**, or no message at all. -/
theorem one_point_each_iff {facilities : List (Str × Json)} {taken : List MqTransition}
    {last : MqState} (run : mqSystem.Run (syncmessage facilities) taken last)
    (server : ∀ body ∈ publishedIn taken, FromServer body) (settled : Settled last) :
    OnePointEach taken ↔ publishedIn taken = [] ∨
      (facilities.length = 1 ∧ ∀ body ∈ publishedIn taken, body.pubTime.isSome = true) := by
  have counted := counted_of_run run server
  have copies (consuming : last.consuming = true) (body : FacMsg) :
      ((writtenIn taken).map Prod.fst).count body =
        facilities.length * (publishedIn taken).count body := by
    have both := (counted.copies consuming).2 body
    rwa [queued_of_settled settled, Nat.add_zero] at both
  constructor
  · rintro ⟨perm, -⟩
    have timed : ∀ body ∈ publishedIn taken, body.pubTime.isSome = true := by
      intro body member
      obtain ⟨w, written, rfl⟩ := List.mem_map.mp (perm.mem_iff.mpr member)
      exact (counted.measured w written).2
    refine or_iff_not_imp_left.mpr fun some_ => ⟨?_, timed⟩
    obtain ⟨body, rest, here⟩ := List.exists_cons_of_ne_nil some_
    have one := copies (counted.consuming timed) body
    rw [perm.count_eq] at one
    have positive : 0 < (publishedIn taken).count body :=
      List.count_pos_iff.mpr (here ▸ List.mem_cons_self)
    exact (Nat.eq_of_mul_eq_mul_right positive ((Nat.one_mul _).trans one)).symm
  · intro condition
    have timed : ∀ body ∈ publishedIn taken, body.pubTime.isSome = true := by
      rcases condition with none_ | ⟨-, timed⟩
      · simp [none_]
      · exact timed
    refine ⟨List.perm_iff_count.mpr ?_, fun w member => (counted.measured w member).1⟩
    intro body
    rw [copies (counted.consuming timed) body]
    rcases condition with none_ | ⟨one, -⟩
    · rw [none_, List.count_nil, Nat.mul_zero]
    · rw [one, Nat.one_mul]

/-- What the server publishes for the packet of TS0001 in December. -/
def decemberMessage : FacMsg :=
  (messageOf (atTime inDecember) daqTs0001 packetTs0001).getD ⟨[], ⟨[]⟩⟩

theorem decemberMessage_fromServer : FromServer decemberMessage := by
  have loaded : getFacInf facilityTs0001 = some daqTs0001 := by decide +kernel
  exact ⟨atTime inDecember, daqTs0001, packetTs0001, .begins loaded, by decide +kernel⟩

instance (s : MqState) : Decidable (Settled s) :=
  inferInstanceAs (Decidable (∀ queue ∈ s.queues, queue.2 = []))

/-- With one facility a message gives one point. -/
theorem one_point_each_iff_one_facility : ∃ taken last,
    mqSystem.Run (syncmessage [(str "TS0001", .object [])]) taken last ∧
      publishedIn taken = [decemberMessage] ∧ OnePointEach taken := by
  obtain ⟨taken, last, run, passed⟩ := mqSystem.exists_run_of_passes
    (syncmessage [(str "TS0001", .object [])])
    [.publishes decemberMessage, .consumes 0 0 emptyDatabase]
    (fun taken last => publishedIn taken = [decemberMessage] && Settled last) (by decide +kernel)
  rw [Bool.and_eq_true] at passed
  have published := of_decide_eq_true passed.1
  have server : ∀ body ∈ publishedIn taken, FromServer body := by
    intro body member
    rw [published] at member
    exact List.mem_singleton.mp member ▸ decemberMessage_fromServer
  refine ⟨taken, last, run, published,
    (one_point_each_iff run server (of_decide_eq_true passed.2)).mpr (.inr ⟨rfl, ?_⟩)⟩
  rw [published]
  decide +kernel

/-- **With two facilities a message gives two points.** -/
theorem two_points_are_written : ∃ taken last,
    mqSystem.Run (syncmessage [(str "TS0001", .object []), (str "TS0002", .object [])]) taken last ∧
      (∀ body ∈ publishedIn taken, FromServer body) ∧ Settled last ∧ ¬ OnePointEach taken := by
  obtain ⟨taken, last, run, passed⟩ := mqSystem.exists_run_of_passes
    (syncmessage [(str "TS0001", .object []), (str "TS0002", .object [])])
    [.publishes decemberMessage, .consumes 0 0 emptyDatabase, .consumes 1 0 emptyDatabase]
    (fun taken last => publishedIn taken = [decemberMessage] && Settled last &&
      (writtenIn taken).length = 2) (by decide +kernel)
  rw [Bool.and_eq_true, Bool.and_eq_true] at passed
  have published := of_decide_eq_true passed.1.1
  refine ⟨taken, last, run, ?_, of_decide_eq_true passed.1.2, fun each => ?_⟩
  · intro body member
    rw [published] at member
    exact List.mem_singleton.mp member ▸ decemberMessage_fromServer
  · have same := each.1.length_eq
    rw [List.length_map, of_decide_eq_true passed.2, published] at same
    cases same

end WhaleShark.Server

import WhaleShark.Foundations.Runs
import WhaleShark.Server.MongoLog

/-!
# Two programs that write the same log

The server and the agent each read a document of the log, change an entry of what they have read,
and write the whole document back. The two operations of a call are steps of their own here, and
any calls interleave (`mongoLog`). The agent asks for the document once more before its call, and
makes none when there is no document.

A document that is written back replaces what was written since it was read. So the log is kept
exactly while each call writes back what is up to date (`UpToDate`, `log_is_kept_iff`). A call that
writes back an older document makes the entries disappear that have come since (`update_is_lost`).
-/

set_option autoImplicit false

namespace WhaleShark.Server

open Foundations

/-- How far a call has come. -/
inductive Stage where
  | idle
  /-- the agent has found a document for the day -/
  | checked (call : Upsert)
  /-- `find_one` of the call has returned -/
  | found (call : Upsert) (document : Option Document)

/-- The documents, and where each caller is. -/
structure LogState where
  documents : Collection
  stage : ℕ → Stage

inductive LogEvent where
  /-- the server's `find_one` for a packet that was decoded -/
  | decoded (caller : ℕ) (docKey pubTime : Str)
  /-- the agent's `document_bykey` for a message that was consumed -/
  | consumed (caller : ℕ) (day pubTime : Str)
  /-- the agent's `find_one` -/
  | finds (caller : ℕ)
  /-- the second half of a call -/
  | writes (caller : ℕ)

def LogState.setStage (s : LogState) (caller : ℕ) (stage : Stage) : LogState :=
  { s with stage := Function.update s.stage caller stage }

/-- The callers and the collection of an equipment. -/
def mongoLog : Machine LogState LogEvent Unit where
  step s
    | .decoded caller docKey pubTime =>
        match s.stage caller with
        | .idle =>
            let call : Upsert := ⟨docKey, pubTime, .published⟩
            some (s.setStage caller (.found call (findOne s.documents docKey)), ())
        | _ => none
    | .consumed caller day pubTime =>
        match s.stage caller with
        | .idle =>
            match findOne s.documents day with
            | none => some (s, ())
            | some _ => some (s.setStage caller (.checked ⟨day, pubTime, .check⟩), ())
        | _ => none
    | .finds caller =>
        match s.stage caller with
        | .checked call =>
            some (s.setStage caller (.found call (findOne s.documents call.docKey)), ())
        | _ => none
    | .writes caller =>
        match s.stage caller with
        | .found call document =>
            some ({ s.setStage caller .idle with
              documents := writeUpsert call document s.documents }, ())
        | _ => none

abbrev LogTransition := Transition LogState LogEvent Unit

/-! ## What is to be kept -/

/-- The entries stay, and none that was received is only published again. -/
def LogKept (old new : Dict Str LogEntry) : Prop :=
  ∀ k e, old.get? k = some e →
    ∃ e', new.get? k = some e' ∧ (e = .received → e' ≠ .published)

/-- Each document is there still, with its log kept. -/
def DocumentsKept (old new : Collection) : Prop :=
  ∀ d ∈ old, ∃ d' ∈ new, d'.id = d.id ∧ LogKept d.log d'.log

/-- The log is kept by each step, and there is at most one document for a day. -/
def LogIntact (past : List LogTransition) (s : LogState) : Prop :=
  (∀ τ ∈ past, DocumentsKept τ.source.documents τ.target.documents) ∧ OneADay s.documents

theorem LogKept.refl (log : Dict Str LogEntry) : LogKept log log := by
  intro k e found
  refine ⟨e, found, ?_⟩
  rintro rfl
  exact LogEntry.received_ne_published

theorem DocumentsKept.refl (documents : Collection) : DocumentsKept documents documents :=
  fun d member => ⟨d, member, rfl, .refl d.log⟩

/-! ## The condition -/

/-- What a call has read of a log still stands: each entry that is stored was read, and was read as
received where it is. The entry of the call need only have been read where it is received. -/
def Current (pubTime : Str) (read stored : Dict Str LogEntry) : Prop :=
  ∀ k e, stored.get? k = some e →
    if k = pubTime then e = .received → read.has k = true
    else ∃ e', read.get? k = some e' ∧ (e = .received → e' ≠ .published)

/-- What a call is to write is up to date: the day it has found no document for has none now, and
the document it has found still stands, unless the call writes nothing. -/
def UpToDateWrite (call : Upsert) (documents : Collection) : Option Document → Prop
  | none => call.docKey ∉ documents.map Document.day
  | some document =>
      document.log.get? call.pubTime ≠ some .check →
        ∀ d ∈ documents, d.id = document.id → Current call.pubTime document.log d.log

/-- The call that a step ends, and what that has found. -/
def writing (τ : LogTransition) : Option (Upsert × Option Document) :=
  match τ.event with
  | .writes caller =>
      match τ.source.stage caller with
      | .found call document => some (call, document)
      | _ => none
  | _ => none

/-- A step writes only what is up to date. -/
def UpToDate (τ : LogTransition) : Prop :=
  ∀ call document, writing τ = some (call, document) →
    UpToDateWrite call τ.source.documents document

/-- The documents are distinct, and a document that was read is there still, for the same day. -/
structure Consistent (s : LogState) : Prop where
  ids : DistinctIds s.documents
  read : ∀ caller call document, s.stage caller = .found call (some document) →
    ∃ d ∈ s.documents, d.id = document.id ∧ d.day = document.day

/-! ## Writing a document back -/

/-- What is written of a log that was read keeps what is stored exactly if the log is current. -/
theorem logKept_set_iff (pubTime : Str) (read stored : Dict Str LogEntry) :
    LogKept stored (read.set pubTime (if read.has pubTime then .received else .published)) ↔
      Current pubTime read stored := by
  refine forall_congr' fun k => forall_congr' fun e => imp_congr_right fun _ => ?_
  rw [Dict.get?_set]
  by_cases own : k = pubTime
  · subst own
    rw [if_pos rfl, if_pos rfl]
    by_cases known : read.has k = true
    · simp [known, LogEntry.received_ne_published]
    · simp [known]
  · rw [if_neg own, if_neg own]

/-- Writing a document back keeps the documents exactly if it keeps the log that it replaces. -/
theorem documentsKept_findOneAndUpdate_iff {documents : Collection} {document : Document} :
    DocumentsKept documents (findOneAndUpdate documents document) ↔
      ∀ d ∈ documents, d.id = document.id → LogKept d.log document.log := by
  constructor
  · intro kept d member same
    obtain ⟨d', member', id, log⟩ := kept d member
    rcases mem_findOneAndUpdate.mp member' with ⟨rfl, -⟩ | ⟨-, other⟩
    · exact log
    · exact absurd (id.trans same) other
  · intro kept d member
    by_cases same : d.id = document.id
    · exact ⟨document, mem_findOneAndUpdate.mpr (.inl ⟨rfl, d, member, same⟩), same.symm,
        kept d member same⟩
    · exact ⟨d, mem_findOneAndUpdate.mpr (.inr ⟨member, same⟩), rfl, .refl d.log⟩

theorem documentsKept_insertOne (documents : Collection) (day : Str) (log : Dict Str LogEntry) :
    DocumentsKept documents (insertOne documents day log) :=
  fun d member => ⟨d, List.mem_append_left _ member, rfl, .refl d.log⟩

theorem oneADay_insertOne_iff {documents : Collection} {day : Str} {log : Dict Str LogEntry} :
    OneADay (insertOne documents day log) ↔
      OneADay documents ∧ day ∉ documents.map Document.day := by
  rw [OneADay, insertOne, List.map_append, List.map_singleton, List.nodup_append, OneADay]
  constructor
  · rintro ⟨distinct, -, apart⟩
    exact ⟨distinct, fun member => apart day member day (List.mem_singleton.mpr rfl) rfl⟩
  · rintro ⟨distinct, absent⟩
    refine ⟨distinct, List.nodup_singleton day, ?_⟩
    intro other member day' last same
    have here : other = day := same.trans (List.mem_singleton.mp last)
    exact absent (here ▸ member)

/-- **A call keeps the log and the days exactly if what it writes is up to date.** -/
theorem writeUpsert_keeps_iff {call : Upsert} {documents : Collection} {found : Option Document}
    (oneADay : OneADay documents)
    (read : ∀ document, found = some document →
      ∀ d ∈ documents, d.id = document.id → d.day = document.day) :
    (DocumentsKept documents (writeUpsert call found documents) ∧
        OneADay (writeUpsert call found documents)) ↔ UpToDateWrite call documents found := by
  cases found with
  | none =>
      rw [writeUpsert, oneADay_insertOne_iff, UpToDateWrite]
      exact ⟨fun kept => kept.2.2,
        fun absent => ⟨documentsKept_insertOne _ _ _, oneADay, absent⟩⟩
  | some document =>
      rw [writeUpsert_some, UpToDateWrite]
      split
      · rename_i check
        exact iff_of_true ⟨.refl documents, oneADay⟩ fun other => absurd check other
      · rename_i other
        have days : OneADay (findOneAndUpdate documents (written call document)) := by
          have same : ∀ d ∈ documents, d.id = (written call document).id →
              d.day = (written call document).day := read document rfl
          rw [OneADay, days_findOneAndUpdate same]
          exact oneADay
        rw [documentsKept_findOneAndUpdate_iff]
        constructor
        · intro kept _ d member same
          exact (logKept_set_iff _ _ _).mp (kept.1 d member same)
        · intro current
          exact ⟨fun d member same => (logKept_set_iff _ _ _).mpr (current other d member same),
            days⟩

/-! ## One step -/

/-- Two documents with one `_id` are one document. -/
theorem DistinctIds.eq {documents : Collection} (distinct : DistinctIds documents) {d e : Document}
    (first : d ∈ documents) (second : e ∈ documents) (same : d.id = e.id) : d = e :=
  List.inj_on_of_nodup_map distinct first second same

/-- The documents that were there are there still, for the same days. -/
def DaysStay (old new : Collection) : Prop := ∀ d ∈ old, ∃ d' ∈ new, d'.id = d.id ∧ d'.day = d.day

theorem writeUpsert_daysStay {call : Upsert} {found : Option Document} {documents : Collection}
    (distinct : DistinctIds documents)
    (read : ∀ document, found = some document →
      ∃ d ∈ documents, d.id = document.id ∧ d.day = document.day) :
    DaysStay documents (writeUpsert call found documents) := by
  intro d member
  cases found with
  | none => exact ⟨d, List.mem_append_left _ member, rfl, rfl⟩
  | some document =>
      rw [writeUpsert_some]
      split
      · exact ⟨d, member, rfl, rfl⟩
      · obtain ⟨stored, inside, id, day⟩ := read document rfl
        by_cases same : d.id = document.id
        · refine ⟨written call document, mem_findOneAndUpdate.mpr (.inl ⟨rfl, d, member, same⟩),
            same.symm, ?_⟩
          rw [distinct.eq member inside (same.trans id.symm)]
          exact day.symm
        · exact ⟨d, mem_findOneAndUpdate.mpr (.inr ⟨member, same⟩), rfl, rfl⟩

/-- A caller that has read a document, or has gone on otherwise. -/
theorem Consistent.setStage {s : LogState} (before : Consistent s) (caller : ℕ) {stage : Stage}
    (read : ∀ call document, stage = .found call (some document) →
      ∃ d ∈ s.documents, d.id = document.id ∧ d.day = document.day) :
    Consistent (s.setStage caller stage) := by
  refine ⟨before.ids, fun other call document found => ?_⟩
  simp only [LogState.setStage, Function.update_apply] at found
  split at found
  · exact read call document found
  · exact before.read other call document found

/-- The steps: the server has read a document, or found none; the agent finds no document, or one;
it has read that one, or found none; or a call writes. -/
inductive LogStep (s : LogState) : LogEvent → LogState → Prop where
  | decoded {caller : ℕ} {docKey pubTime : Str} :
      LogStep s (.decoded caller docKey pubTime)
        (s.setStage caller (.found ⟨docKey, pubTime, .published⟩ (findOne s.documents docKey)))
  | finds_nothing {caller : ℕ} {day pubTime : Str} : LogStep s (.consumed caller day pubTime) s
  | checks {caller : ℕ} {day pubTime : Str} {d : Document}
      (present : findOne s.documents day = some d) :
      LogStep s (.consumed caller day pubTime) (s.setStage caller (.checked ⟨day, pubTime, .check⟩))
  | finds {caller : ℕ} {call : Upsert} (stage : s.stage caller = .checked call) :
      LogStep s (.finds caller)
        (s.setStage caller (.found call (findOne s.documents call.docKey)))
  | writes {caller : ℕ} {call : Upsert} {document : Option Document}
      (stage : s.stage caller = .found call document) :
      LogStep s (.writes caller)
        { s.setStage caller .idle with documents := writeUpsert call document s.documents }

/-- Every step of the machine is one of these. -/
theorem mongoLog_cases {s s' : LogState} {e : LogEvent} {o : Unit}
    (step : mongoLog.step s e = some (s', o)) : LogStep s e s' := by
  cases e with
  | decoded caller docKey pubTime =>
      simp only [mongoLog] at step
      split at step
      · cases step
        exact .decoded
      · cases step
  | consumed caller day pubTime =>
      simp only [mongoLog] at step
      split at step
      · split at step
        · cases step
          exact .finds_nothing
        · rename_i present
          cases step
          exact .checks present
      · cases step
  | finds caller =>
      simp only [mongoLog] at step
      split at step
      · rename_i stage
        cases step
        exact .finds stage
      · cases step
  | writes caller =>
      simp only [mongoLog] at step
      split at step
      · rename_i stage
        cases step
        exact .writes stage
      · cases step

theorem findOne_read {documents : Collection} {day : Str} {call call' : Upsert} {document : Document}
    (found : Stage.found call (findOne documents day) = .found call' (some document)) :
    ∃ d ∈ documents, d.id = document.id ∧ d.day = document.day := by
  injection found with _ found
  exact ⟨document, (findOne_mem found).1, rfl, rfl⟩

/-- What is read stays readable. -/
theorem Consistent.step {s s' : LogState} {e : LogEvent} (step : LogStep s e s')
    (before : Consistent s) : Consistent s' := by
  cases step with
  | decoded => exact before.setStage _ fun _ _ => findOne_read
  | finds_nothing => exact before
  | checks => exact before.setStage _ fun _ _ other => nomatch other
  | finds => exact before.setStage _ fun _ _ => findOne_read
  | @writes caller call document stage =>
      have stay : DaysStay s.documents (writeUpsert call document s.documents) :=
        writeUpsert_daysStay before.ids fun read found => before.read caller call read (found ▸ stage)
      refine ⟨writeUpsert_distinctIds before.ids, fun other call' document' found => ?_⟩
      simp only [LogState.setStage, Function.update_apply] at found
      split at found
      · cases found
      · obtain ⟨d, member, id, day⟩ := before.read other call' document' found
        obtain ⟨d', member', id', day'⟩ := stay d member
        exact ⟨d', member', id'.trans id, day'.trans day⟩

/-- **A step keeps the log and the days exactly if what it writes is up to date.** -/
theorem keeps_iff_upToDate {τ : LogTransition} (takes : mongoLog.Takes τ)
    (consistent : Consistent τ.source) (oneADay : OneADay τ.source.documents) :
    (DocumentsKept τ.source.documents τ.target.documents ∧ OneADay τ.target.documents) ↔
      UpToDate τ := by
  obtain ⟨s, e, o, s'⟩ := τ
  have step : LogStep s e s' := mongoLog_cases takes
  have kept : DocumentsKept s.documents s.documents ∧ OneADay s.documents :=
    ⟨.refl s.documents, oneADay⟩
  cases step with
  | decoded => exact iff_of_true kept fun call document writes => nomatch writes
  | finds_nothing => exact iff_of_true kept fun call document writes => nomatch writes
  | checks => exact iff_of_true kept fun call document writes => nomatch writes
  | finds => exact iff_of_true kept fun call document writes => nomatch writes
  | @writes caller call document stage =>
      have same : ∀ read, document = some read →
          ∀ d ∈ s.documents, d.id = read.id → d.day = read.day := by
        intro read found d member id
        obtain ⟨stored, inside, id', day⟩ := consistent.read caller call read (found ▸ stage)
        rw [consistent.ids.eq member inside (id.trans id'.symm), day]
      rw [writeUpsert_keeps_iff oneADay same]
      simp only [UpToDate, writing, stage]
      exact ⟨fun upToDate _ _ own => by cases own; exact upToDate, fun each => each _ _ rfl⟩

/-! ## A run -/

/-- Nobody is in a call, and the documents are distinct, with one for a day at most. -/
structure LogStarts (s : LogState) : Prop where
  idle : ∀ caller, s.stage caller = .idle
  ids : DistinctIds s.documents
  days : OneADay s.documents

theorem LogStarts.consistent {s : LogState} (starts : LogStarts s) : Consistent s where
  ids := starts.ids
  read := by simp [starts.idle]

/-- **The log is kept in a run exactly if all that is written is up to date.** -/
theorem log_is_kept_iff {first last : LogState} {taken : List LogTransition}
    (starts : LogStarts first) (run : mongoLog.Run first taken last) :
    Machine.Throughout LogIntact taken last ↔ ∀ τ ∈ taken, UpToDate τ := by
  refine run.throughout_iff LogIntact Consistent UpToDate
    ⟨⟨by simp, starts.days⟩, starts.consistent⟩ ?_ ?_
  · intro past τ takes upToDate intact consistent
    obtain ⟨kept, oneADay⟩ := (keeps_iff_upToDate takes consistent intact.2).mpr upToDate
    refine ⟨⟨?_, oneADay⟩, consistent.step (mongoLog_cases takes)⟩
    intro σ member
    rcases List.mem_append.mp member with earlier | here
    · exact intact.1 σ earlier
    · rw [List.mem_singleton.mp here]
      exact kept
  · intro past τ takes stale intact consistent after
    exact stale ((keeps_iff_upToDate takes consistent intact.2).mp ⟨after.1 τ (by simp), after.2⟩)

/-! ## The entry CHECK -/

/-- No document has the entry `CHECK`, stored or read. The agent, which calls with it, has found a
document for the day before, so that its calls do not insert. -/
structure Unchecked (s : LogState) : Prop where
  stored : Sound s.documents
  read : ∀ caller call document, s.stage caller = .found call (some document) →
    ∀ k, document.log.get? k ≠ some .check
  checked : ∀ caller call, s.stage caller = .checked call →
    call.docKey ∈ s.documents.map Document.day
  inserts : ∀ caller call, s.stage caller = .found call none → call.status ≠ .check

/-- A caller that has gone on without writing. -/
theorem Unchecked.setStage {s : LogState} (before : Unchecked s) (caller : ℕ) {stage : Stage}
    (read : ∀ call document, stage = .found call (some document) →
      ∀ k, document.log.get? k ≠ some .check)
    (checked : ∀ call, stage = .checked call → call.docKey ∈ s.documents.map Document.day)
    (inserts : ∀ call, stage = .found call none → call.status ≠ .check) :
    Unchecked (s.setStage caller stage) := by
  refine ⟨before.stored, fun other => ?_, fun other => ?_, fun other => ?_⟩ <;>
    simp only [LogState.setStage, Function.update_apply] <;> split
  · exact read
  · exact before.read other
  · exact checked
  · exact before.checked other
  · exact inserts
  · exact before.inserts other

theorem Sound.findOne_unchecked {documents : Collection} (sound : Sound documents) {day : Str}
    {call call' : Upsert} {document : Document}
    (found : Stage.found call (findOne documents day) = .found call' (some document)) :
    ∀ k, document.log.get? k ≠ some .check := by
  injection found with _ found
  exact sound.unchecked document (findOne_mem found).1

theorem Unchecked.step {s s' : LogState} {e : LogEvent} (step : LogStep s e s')
    (consistent : Consistent s) (before : Unchecked s) : Unchecked s' := by
  cases step with
  | decoded =>
      refine before.setStage _ (fun _ _ => before.stored.findOne_unchecked) (by simp) ?_
      intro call found
      injection found with same
      simp [← same, LogEntry.published]
  | finds_nothing => exact before
  | checks present =>
      refine before.setStage _ (by simp) ?_ (by simp)
      intro call own
      cases own
      obtain ⟨member, day⟩ := findOne_mem present
      exact List.mem_map.mpr ⟨_, member, day⟩
  | finds stage =>
      refine before.setStage _ (fun _ _ => before.stored.findOne_unchecked) (by simp) ?_
      intro call found
      injection found with same absent
      exact absurd (before.checked _ _ stage) (findOne_eq_none.mp absent)
  | @writes caller call document stage =>
      have stay : DaysStay s.documents (writeUpsert call document s.documents) :=
        writeUpsert_daysStay consistent.ids
          fun read found => consistent.read caller call read (found ▸ stage)
      have idle : Unchecked (s.setStage caller .idle) :=
        before.setStage caller (by simp) (by simp) (by simp)
      refine ⟨before.stored.writeUpsert ?_ ?_, idle.read, fun other call' here => ?_, idle.inserts⟩
      · rintro read rfl
        exact before.read caller call read stage
      · rintro rfl
        exact before.inserts caller call stage
      · obtain ⟨d, member, day⟩ := List.mem_map.mp (idle.checked other call' here)
        obtain ⟨d', member', -, day'⟩ := stay d member
        exact List.mem_map.mpr ⟨d', member', day'.trans day⟩

/-- Before the first packet. -/
def emptyLog : LogState := ⟨[], fun _ => .idle⟩

theorem emptyLog_starts : LogStarts emptyLog where
  idle _ := rfl
  ids := List.nodup_nil
  days := List.nodup_nil

/-- **No document ever has the entry `CHECK`.** -/
theorem sound_of_run {taken : List LogTransition} {last : LogState}
    (run : mongoLog.Run emptyLog taken last) : Sound last.documents := by
  have start : Consistent emptyLog ∧ Unchecked emptyLog := by
    refine ⟨emptyLog_starts.consistent, ⟨List.nodup_nil, by simp [emptyLog]⟩, ?_, ?_, ?_⟩ <;>
      simp [emptyLog]
  have along := run.invariant (fun _ s => Consistent s ∧ Unchecked s) start
    fun past τ takes before => ⟨before.1.step (mongoLog_cases takes),
      before.2.step (mongoLog_cases takes) before.1⟩
  exact along.1.2.stored

/-! ## Two runs -/

instance (pubTime : Str) (read stored : Dict Str LogEntry) : Decidable (Current pubTime read stored) :=
  decidable_of_iff
    (∀ k ∈ stored.entries.map Prod.fst, (stored.get? k).all (fun e => decide
      (if k = pubTime then e = .received → read.has k = true
        else (read.get? k).any (fun e' => decide (e = .received → e' ≠ .published)) = true)) = true)
    (by
      simp only [Option.all_eq_true, decide_eq_true_eq, Option.any_eq_true, Current]
      refine ⟨fun each k e found => each k (List.mem_map_of_mem (Dict.mem_of_get? found)) e found,
        fun current k _ e found => current k e found⟩)

instance (call : Upsert) (documents : Collection) :
    ∀ found, Decidable (UpToDateWrite call documents found)
  | none => inferInstanceAs (Decidable (_ ∉ _))
  | some document =>
      inferInstanceAs (Decidable (document.log.get? call.pubTime ≠ some .check →
        ∀ d ∈ documents, d.id = document.id → Current call.pubTime document.log d.log))

instance (τ : LogTransition) : Decidable (UpToDate τ) :=
  decidable_of_iff
    ((writing τ).all (fun w => decide (UpToDateWrite w.1 τ.source.documents w.2)) = true)
    (by simp [UpToDate, Option.all_eq_true])

/-- The server publishes a reading, and another one; the agent receives the first in between, one
call after the other. -/
theorem log_is_kept_iff_one_by_one : ∃ taken last, mongoLog.Run emptyLog taken last ∧
    Machine.Throughout LogIntact taken last ∧
      (findOne last.documents (str "2020-12-10")).any (fun d =>
        d.log.entries = [(str "p1", .received), (str "p2", .published)]) = true := by
  obtain ⟨taken, last, run, passed⟩ := mongoLog.exists_run_of_passes emptyLog
    [.decoded 0 (str "2020-12-10") (str "p1"), .writes 0,
      .consumed 1 (str "2020-12-10") (str "p1"), .finds 1, .writes 1,
      .decoded 0 (str "2020-12-10") (str "p2"), .writes 0]
    (fun taken last => taken.all (fun τ => UpToDate τ) &&
      (findOne last.documents (str "2020-12-10")).any (fun d =>
        d.log.entries = [(str "p1", .received), (str "p2", .published)])) (by decide +kernel)
  rw [Bool.and_eq_true, List.all_eq_true] at passed
  exact ⟨taken, last, run, (log_is_kept_iff emptyLog_starts run).mpr
    fun τ member => of_decide_eq_true (passed.1 τ member), passed.2⟩

/-- The step makes an entry of a document disappear. -/
def loses (k : Str) (τ : LogTransition) : Bool :=
  τ.source.documents.any fun d => d.log.has k &&
    τ.target.documents.all fun d' => d'.id ≠ d.id || !d'.log.has k

theorem not_documentsKept {k : Str} {τ : LogTransition} (lost : loses k τ = true) :
    ¬ DocumentsKept τ.source.documents τ.target.documents := by
  intro kept
  obtain ⟨d, member, here⟩ := List.any_eq_true.mp lost
  rw [Bool.and_eq_true, List.all_eq_true] at here
  obtain ⟨e, found⟩ := Option.isSome_iff_exists.mp here.1
  obtain ⟨d', member', id, log⟩ := kept d member
  obtain ⟨e', found', -⟩ := log k e found
  simpa [id, Dict.has, found'] using here.2 d' member'

/-- **An update is lost.** The agent has read the document for the first reading when the server
writes the second one; the agent then writes its document back, without the second reading. -/
theorem update_is_lost : ∃ taken last, mongoLog.Run emptyLog taken last ∧
    ¬ Machine.Throughout LogIntact taken last := by
  obtain ⟨taken, last, run, passed⟩ := mongoLog.exists_run_of_passes emptyLog
    [.decoded 0 (str "2020-12-10") (str "p1"), .writes 0,
      .consumed 1 (str "2020-12-10") (str "p1"), .finds 1,
      .decoded 0 (str "2020-12-10") (str "p2"), .writes 0, .writes 1]
    (fun taken _ => taken.any (loses (str "p2"))) (by decide +kernel)
  obtain ⟨τ, member, lost⟩ := List.any_eq_true.mp passed
  exact ⟨taken, last, run, fun intact => not_documentsKept lost (intact.1.1 τ member)⟩

end WhaleShark.Server

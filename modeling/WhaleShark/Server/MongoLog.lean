import Mathlib.Data.List.Nodup
import WhaleShark.Server.Convert

/-!
# The log of a day

For each equipment the database has a collection with a document for each day, whose `LOG` has an
entry for each time at which a reading was published. `document_upsert` reads the document of a day,
changes one entry of what it has read, and writes the whole document back: the server notes a
reading that it publishes, and the agent notes that a reading was received.

The call is two operations on the database, `findOne` and what `writeUpsert` does with its result.
With nothing in between they change the document of the day, and in it the entry of the call
(`documentUpsert_found`), or they add a document (`documentUpsert_absent`).
-/

set_option autoImplicit false

namespace WhaleShark.Server

/-- An entry of `LOG`: a `dict` with the key `SENT`, or the text `CHECK`. -/
inductive LogEntry where
  | sent (value : Str)
  | check
  deriving DecidableEq

/-- `{'SENT': ''}` -/
def LogEntry.published : LogEntry := .sent []

/-- `{'SENT': 'RECEIVED'}` -/
def LogEntry.received : LogEntry := .sent (str "RECEIVED")

theorem LogEntry.received_ne_published : LogEntry.received ≠ LogEntry.published := by
  decide +kernel

/-- A document, with its `_id`. -/
structure Document where
  id : ℕ
  day : Str
  log : Dict Str LogEntry
  deriving DecidableEq

/-- A collection, in the order of insertion. -/
abbrev Collection := List Document

/-- What `document_upsert` is called with, on a collection. -/
structure Upsert where
  docKey : Str
  pubTime : Str
  status : LogEntry
  deriving DecidableEq

/-! ## The operations of the database -/

/-- `find_one({'DAY': day})` -/
def findOne (documents : Collection) (day : Str) : Option Document :=
  documents.find? fun d => d.day = day

/-- An `_id` that no document has. -/
def freshId (documents : Collection) : ℕ := (documents.map Document.id).foldr max 0 + 1

/-- `insert_one({'DAY': day, 'LOG': log})` -/
def insertOne (documents : Collection) (day : Str) (log : Dict Str LogEntry) : Collection :=
  documents ++ [⟨freshId documents, day, log⟩]

/-- `find_one_and_update({'_id': doc_id}, {'$set': document})`, for the `_id` of `document`. -/
def findOneAndUpdate (documents : Collection) (document : Document) : Collection :=
  documents.map fun d => if d.id = document.id then document else d

/-- `document_upsert` behind `find_one`, for what that has found. -/
def writeUpsert (call : Upsert) (found : Option Document) (documents : Collection) : Collection :=
  match found with
  | none => insertOne documents call.docKey ⟨[(call.pubTime, call.status)]⟩
  | some document =>
      match document.log.get? call.pubTime with
      | some (.sent _) =>
          findOneAndUpdate documents
            { document with log := document.log.set call.pubTime .received }
      -- an error is logged
      | some .check => documents
      | none =>
          findOneAndUpdate documents
            { document with log := document.log.set call.pubTime .published }

/-- `document_upsert`, with nothing in between. -/
def documentUpsert (call : Upsert) (documents : Collection) : Collection :=
  writeUpsert call (findOne documents call.docKey) documents

/-! ## What the operations change -/

/-- The documents have distinct `_id`s. -/
def DistinctIds (documents : Collection) : Prop := (documents.map Document.id).Nodup

/-- There is at most one document for a day. -/
def OneADay (documents : Collection) : Prop := (documents.map Document.day).Nodup

instance (documents : Collection) : Decidable (OneADay documents) :=
  inferInstanceAs (Decidable (List.Nodup _))

theorem le_foldr_max {n : ℕ} {ns : List ℕ} (member : n ∈ ns) : n ≤ ns.foldr max 0 := by
  induction ns with
  | nil => cases member
  | cons m ns ih =>
      rw [List.foldr_cons]
      rcases List.mem_cons.mp member with rfl | later
      · exact le_max_left _ _
      · exact (ih later).trans (le_max_right _ _)

theorem freshId_ne {documents : Collection} {d : Document} (member : d ∈ documents) :
    d.id ≠ freshId documents :=
  Nat.ne_of_lt (Nat.lt_succ_of_le (le_foldr_max (List.mem_map_of_mem member)))

theorem DistinctIds.insertOne {documents : Collection} (distinct : DistinctIds documents) (day : Str)
    (log : Dict Str LogEntry) : DistinctIds (insertOne documents day log) := by
  rw [DistinctIds, Server.insertOne, List.map_append, List.nodup_append]
  refine ⟨distinct, by simp, ?_⟩
  intro id member other fresh
  obtain ⟨d, inside, rfl⟩ := List.mem_map.mp member
  rw [List.map_singleton, List.mem_singleton] at fresh
  rw [fresh]
  exact freshId_ne inside

theorem ids_findOneAndUpdate (documents : Collection) (document : Document) :
    (findOneAndUpdate documents document).map Document.id = documents.map Document.id := by
  rw [findOneAndUpdate, List.map_map]
  refine List.map_congr_left fun d _ => ?_
  simp only [Function.comp_apply]
  split
  · rename_i same
    exact same.symm
  · rfl

/-- Writing a document back keeps the days when the document keeps its own. -/
theorem days_findOneAndUpdate {documents : Collection} {document : Document}
    (same : ∀ d ∈ documents, d.id = document.id → d.day = document.day) :
    (findOneAndUpdate documents document).map Document.day = documents.map Document.day := by
  rw [findOneAndUpdate, List.map_map]
  refine List.map_congr_left fun d member => ?_
  simp only [Function.comp_apply]
  split
  · rename_i here
    exact (same d member here).symm
  · rfl

theorem mem_findOneAndUpdate {documents : Collection} {document d' : Document} :
    d' ∈ findOneAndUpdate documents document ↔
      (d' = document ∧ ∃ d ∈ documents, d.id = document.id) ∨
        (d' ∈ documents ∧ d'.id ≠ document.id) := by
  rw [findOneAndUpdate, List.mem_map]
  constructor
  · rintro ⟨d, member, rfl⟩
    split
    · rename_i same
      exact .inl ⟨rfl, d, member, same⟩
    · rename_i other
      exact .inr ⟨member, other⟩
  · rintro (⟨rfl, d, member, same⟩ | ⟨member, other⟩)
    · exact ⟨d, member, if_pos same⟩
    · exact ⟨d', member, if_neg other⟩

/-- Where documents are distinct, writing one back changes that one. -/
theorem findOneAndUpdate_split {before after : Collection} {d document : Document}
    (distinct : DistinctIds (before ++ d :: after)) (same : document.id = d.id) :
    findOneAndUpdate (before ++ d :: after) document = before ++ document :: after := by
  have others : ∀ part : Collection, (∀ x ∈ part, x.id ≠ d.id) →
      part.map (fun x => if x.id = document.id then document else x) = part := by
    intro part apart
    refine (List.map_congr_left fun x member => ?_).trans (List.map_id part)
    rw [if_neg (same ▸ apart x member), id]
  rw [DistinctIds, List.map_append, List.map_cons, List.nodup_append, List.nodup_cons] at distinct
  obtain ⟨-, ⟨later, -⟩, earlier⟩ := distinct
  rw [findOneAndUpdate, List.map_append, List.map_cons, if_pos same.symm, others before, others after]
  · intro x member here
    exact later (here ▸ List.mem_map_of_mem member)
  · intro x member here
    exact earlier _ (List.mem_map_of_mem member) _ List.mem_cons_self here

theorem findOne_mem {documents : Collection} {day : Str} {d : Document}
    (found : findOne documents day = some d) : d ∈ documents ∧ d.day = day :=
  ⟨List.mem_of_find?_eq_some found, by simpa using List.find?_some found⟩

theorem findOne_eq_none {documents : Collection} {day : Str} :
    findOne documents day = none ↔ day ∉ documents.map Document.day := by
  rw [findOne, List.find?_eq_none, List.mem_map]
  simp only [decide_eq_true_eq, not_exists, not_and]

/-- The document of a day is the first one for it. -/
theorem findOne_eq_some {documents : Collection} {day : Str} {d : Document} :
    findOne documents day = some d ↔
      d.day = day ∧ ∃ before after, documents = before ++ d :: after ∧
        ∀ x ∈ before, x.day ≠ day := by
  rw [findOne, List.find?_eq_some_iff_append]
  simp

/-! ## A whole call -/

/-- The documents are distinct, and none has the entry `CHECK`. -/
structure Sound (documents : Collection) : Prop where
  ids : DistinctIds documents
  unchecked : ∀ d ∈ documents, ∀ k, d.log.get? k ≠ some .check

/-- What a call writes for a document that it has found. -/
def written (call : Upsert) (document : Document) : Document :=
  { document with
    log := document.log.set call.pubTime
      (if document.log.has call.pubTime then .received else .published) }

theorem writeUpsert_some (call : Upsert) (document : Document) (documents : Collection) :
    writeUpsert call (some document) documents =
      if document.log.get? call.pubTime = some .check then documents
      else findOneAndUpdate documents (written call document) := by
  cases entry : document.log.get? call.pubTime with
  | none => simp [writeUpsert, written, Dict.has, entry]
  | some e => cases e <;> simp [writeUpsert, written, Dict.has, entry]

/-- Setting an entry to what is not `CHECK` brings no `CHECK` into a document. -/
theorem written_unchecked {call : Upsert} {document : Document}
    (unchecked : ∀ k, document.log.get? k ≠ some .check) (k : Str) :
    (written call document).log.get? k ≠ some .check := by
  simp only [written, Dict.get?_set]
  split
  · split <;> simp [LogEntry.received, LogEntry.published]
  · exact unchecked k

theorem writeUpsert_distinctIds {call : Upsert} {found : Option Document} {documents : Collection}
    (distinct : DistinctIds documents) : DistinctIds (writeUpsert call found documents) := by
  cases found with
  | none => exact distinct.insertOne _ _
  | some document =>
      rw [writeUpsert_some]
      split
      · exact distinct
      · rw [DistinctIds, ids_findOneAndUpdate]
        exact distinct

/-- A call keeps the documents sound that has found a sound one, or that does not insert `CHECK`. -/
theorem Sound.writeUpsert {documents : Collection} (sound : Sound documents) {call : Upsert}
    {found : Option Document}
    (read : ∀ document, found = some document → ∀ k, document.log.get? k ≠ some .check)
    (inserts : found = none → call.status ≠ .check) :
    Sound (writeUpsert call found documents) := by
  refine ⟨writeUpsert_distinctIds sound.ids, ?_⟩
  cases found with
  | none =>
      intro d member k
      rcases List.mem_append.mp member with earlier | last
      · exact sound.unchecked d earlier k
      · rw [List.mem_singleton.mp last]
        simp only [Dict.get?, List.lookup_cons, List.lookup_nil]
        split <;> simp [inserts rfl]
  | some document =>
      rw [writeUpsert_some]
      split
      · exact sound.unchecked
      · intro d member
        rcases mem_findOneAndUpdate.mp member with ⟨rfl, -⟩ | ⟨stored, -⟩
        · exact written_unchecked (read document rfl)
        · exact sound.unchecked d stored

theorem documentUpsert_absent {call : Upsert} {documents : Collection}
    (absent : findOne documents call.docKey = none) :
    documentUpsert call documents =
      insertOne documents call.docKey ⟨[(call.pubTime, call.status)]⟩ := by
  rw [documentUpsert, absent]
  rfl

/-- **A call changes the document of its day only.** -/
theorem documentUpsert_found (call : Upsert) {documents : Collection} {d : Document}
    (sound : Sound documents) (found : findOne documents call.docKey = some d) :
    ∃ before after, documents = before ++ d :: after ∧ (∀ x ∈ before, x.day ≠ call.docKey) ∧
      documentUpsert call documents = before ++ written call d :: after := by
  obtain ⟨-, before, after, rfl, first⟩ := findOne_eq_some.mp found
  refine ⟨before, after, rfl, first, ?_⟩
  rw [documentUpsert, found, writeUpsert_some, if_neg (sound.unchecked d (by simp) _)]
  exact findOneAndUpdate_split sound.ids rfl

/-- Behind a call there is a document for the day, with the entry of the call. -/
theorem findOne_documentUpsert (call : Upsert) {documents : Collection} (sound : Sound documents) :
    ∃ d, findOne (documentUpsert call documents) call.docKey = some d ∧
      d.log.has call.pubTime = true := by
  cases found : findOne documents call.docKey with
  | none =>
      rw [documentUpsert_absent found, insertOne]
      refine ⟨⟨freshId documents, call.docKey, ⟨[(call.pubTime, call.status)]⟩⟩,
        findOne_eq_some.mpr ⟨rfl, documents, [], rfl, fun x member same => ?_⟩, by
          simp [Dict.has, Dict.get?]⟩
      exact findOne_eq_none.mp found (same ▸ List.mem_map_of_mem member)
  | some d =>
      obtain ⟨before, after, -, first, behind⟩ := documentUpsert_found call sound found
      refine ⟨written call d, ?_, by simp [written, Dict.has, Dict.get?_set]⟩
      rw [behind]
      exact findOne_eq_some.mpr ⟨(findOne_mem found).2, before, after, rfl, first⟩

end WhaleShark.Server

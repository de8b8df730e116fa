import Mathlib.Data.List.Basic

/-!
# Scanners that keep a suffix

A receiver often scans everything it holds each time bytes arrive, reports what it found, and
keeps a suffix to be scanned again together with the next bytes. Such a scanner does not
depend on how its input is cut into chunks when two laws hold: keeping and then appending
keeps what appending would have kept, and the report of a whole is the report of its
beginning joined with the report of what was kept and appended (`Scanner.Resumes`).

Under the laws, feeding chunk after chunk ends with the suffix and the joined report of the
uncut input (`Resumes.feed_eq`). A scanner that reports the same thing on each
rescan is covered, because the join may be idempotent.
-/

set_option autoImplicit false

namespace Foundations

/-- What a scanner keeps of what it holds, what it reports of it, and how reports add up. -/
structure Scanner (α ω : Type*) where
  keep : List α → List α
  report : List α → ω
  nothing : ω
  join : ω → ω → ω

namespace Scanner

variable {α ω : Type*} (S : Scanner α ω)

/-- The laws under which the scanner may be interrupted and resumed anywhere. -/
structure Resumes : Prop where
  keep_append : ∀ held chunk, S.keep (S.keep held ++ chunk) = S.keep (held ++ chunk)
  report_append : ∀ held chunk,
    S.report (held ++ chunk) = S.join (S.report held) (S.report (S.keep held ++ chunk))
  join_assoc : ∀ r s t, S.join (S.join r s) t = S.join r (S.join s t)
  join_nothing : ∀ r, S.join r S.nothing = r

/-- Scan chunk after chunk, from what is held: what is kept in the end, and all reports. -/
def feed : List α → List (List α) → List α × ω
  | held, [] => (held, S.nothing)
  | held, chunk :: chunks =>
      let later := feed (S.keep (held ++ chunk)) chunks
      (later.1, S.join (S.report (held ++ chunk)) later.2)

variable {S}

/-- **Feeding in chunks is scanning the whole**, from anything that was kept. -/
theorem Resumes.feed_eq (law : S.Resumes) (held : List α) (chunks : List (List α)) :
    (S.feed (S.keep held) chunks).1 = S.keep (held ++ chunks.flatten) ∧
      S.join (S.report held) (S.feed (S.keep held) chunks).2 =
        S.report (held ++ chunks.flatten) := by
  induction chunks generalizing held with
  | nil => simp [feed, law.join_nothing]
  | cons chunk chunks ih =>
      obtain ⟨keeps, reports⟩ := ih (held ++ chunk)
      rw [← law.keep_append] at keeps reports
      simp only [feed, List.flatten_cons, ← List.append_assoc]
      refine ⟨keeps, ?_⟩
      rw [← law.join_assoc, ← law.report_append, reports]

/-- From a suffix that is its own suffix and has nothing to report, the reports of the chunks
are the report of the whole. -/
theorem Resumes.feed_quiet (law : S.Resumes) (nothing_join : ∀ r, S.join S.nothing r = r)
    {held : List α} (kept : S.keep held = held) (quiet : S.report held = S.nothing)
    (chunks : List (List α)) :
    S.feed held chunks = (S.keep (held ++ chunks.flatten), S.report (held ++ chunks.flatten)) := by
  obtain ⟨keeps, reports⟩ := law.feed_eq held chunks
  rw [kept] at keeps reports
  rw [quiet, nothing_join] at reports
  exact Prod.ext keeps reports

end Scanner

end Foundations

import GraphWorkbench.Proofs.Document.Ledger
import GraphWorkbench.Proofs.Stix.Import
/-!
What an import tells. Its commit is told as any other, if there is one, and what came of the import
is told after it; an import that ends before its commit tells nothing.
-/
namespace GraphWorkbench

namespace Stix

variable {s : Store} {t : Timeline}

/-- What is told of a finished import besides its commit. -/
def announcements (summary : Summary) : List Notice :=
  .told ⟨"importCompleted", .obj [("summary", summary.toJson)]⟩ ::
    if summary.issues.isEmpty then []
    else [.told ⟨"validationFailed", .obj [("errors", .arr (summary.issues.map Issue.toJson))]⟩]

theorem announce_eq (s : Store) (summary : Summary) :
    announce s summary = s.withLog (s.log.recordAll (announcements summary)) := by
  unfold announce announcements
  split <;> rfl

theorem ledger_announcements (s : Store) (summary : Summary) (log : EventLog Notice) :
    s.Ledger (announcements summary) (s.withLog log) := by
  have hchanges : Notice.changes (announcements summary) = [] := by
    unfold announcements
    split <;> rfl
  have hnamed : ∀ n ∈ announcements summary, n.toEvent.name ≠ "documentChanged" := by
    intro n hn
    rcases List.mem_cons.mp hn with rfl | hissues
    · simp [Notice.toEvent]
    · split at hissues
      next => simp at hissues
      next =>
        rw [List.mem_singleton.mp hissues]
        simp [Notice.toEvent]
  exact .silent hchanges hnamed rfl rfl

/-- What the commit of an import tells. -/
theorem commit_ledger (h : s.Tracks t) (accepted : List Item) :
    ∃ told, Store.Tells (fun s => commit s accepted) s told ∧
      s.Ledger told (commit s accepted).1 := by
  unfold commit
  by_cases hempty : accepted.isEmpty = true
  · simp only [hempty, if_true]
    exact ⟨[], fun _ => rfl, .refl _⟩
  · obtain ⟨told, htells, hledger, -⟩ :=
      h.move_ledger (.apply (.batch (some importLabel) (accepted.map Item.mutation)))
    simp only [hempty, Bool.false_eq_true, if_false]
    refine ⟨told, ?_, hledger⟩
    intro log
    exact congrArg (fun r => (r.1, r.2.map fun _ => ())) (htells log)

/-- What an import tells: its commit, if there is one, and what came of it. -/
theorem importInto_ledger (h : s.Tracks t) (o : Options) (origin : Bundle.Origin)
    (cancelled : Bool) :
    ∃ told, Store.Tells (fun s => importInto s o origin cancelled) s told ∧
      s.Ledger told (importInto s o origin cancelled).1 := by
  have hsilent : s.Ledger [] s := .refl s
  cases hprepare : prepare s o origin with
  | error e =>
    have hall : ∀ log,
        importInto (s.withLog log) o origin cancelled = (s.withLog log, .error e) :=
      fun log => importInto_of_error (s := s.withLog log) hprepare
    refine ⟨[], .of_withLog hall, ?_⟩
    rwa [importInto_of_error hprepare]
  | ok prepared =>
    obtain ⟨b, report, c, accepted⟩ := prepared
    have hprepares : ∀ log, prepare (s.withLog log) o origin = .ok (b, report, c, accepted) :=
      fun _ => hprepare
    cases cancelled with
    | true =>
      have hall : ∀ log,
          importInto (s.withLog log) o origin true = (s.withLog log, .error .cancelled) :=
        fun log => importInto_of_cancelled (hprepares log)
      refine ⟨[], .of_withLog hall, ?_⟩
      rwa [importInto_of_cancelled hprepare]
    | false =>
      obtain ⟨told, htells, hledger⟩ := commit_ledger h accepted
      have hcommits : ∀ log, commit (s.withLog log) accepted =
          ((commit s accepted).1.withLog (log.recordAll told), (commit s accepted).2) := htells
      cases hcommit : (commit s accepted).2 with
      | error stop =>
        have hall : ∀ log, importInto (s.withLog log) o origin false =
            ((commit s accepted).1.withLog (log.recordAll told), .error (.stop stop)) := by
          intro log
          have hstop : (commit (s.withLog log) accepted).2 = .error stop := by
            rw [hcommits, hcommit]
          rw [importInto_of_stop (hprepares log) hstop, hcommits]
        refine ⟨told, .of_withLog hall, ?_⟩
        rwa [importInto_of_stop hprepare hcommit]
      | ok _ =>
        let summary := summarize b report c accepted
        have hall : ∀ log, importInto (s.withLog log) o origin false =
            ((commit s accepted).1.withLog (log.recordAll (told ++ announcements summary)),
              .ok summary) := by
          intro log
          have hok : (commit (s.withLog log) accepted).2 = .ok () := by
            rw [hcommits, hcommit]
          rw [importInto_of_commit (hprepares log) hok, hcommits, announce_eq,
            EventLog.recordAll_append]
          rfl
        refine ⟨_, .of_withLog hall, ?_⟩
        rw [importInto_of_commit hprepare hcommit, announce_eq]
        exact hledger.append (ledger_announcements _ summary _)

end Stix

end GraphWorkbench

import GraphWorkbench.Proofs.Document.Timeline
/-!
What a store tells of its commits. The log of a store forgets, so what is told is asked of all logs
at once: `Tells` says which notices a step leaves behind on whatever was logged before. Every commit
is told once, under the next number and with the document that it made, so whoever hears all of it
knows the document without asking.
-/
namespace GraphWorkbench

namespace Notice

/-- The number and the document of a commit, where a notice tells of one. -/
def change? : Notice → Option (Nat × Document)
  | .changed d _ revision => some (revision, d)
  | _ => none

/-- The commits that are told of, in order. -/
def changes (told : List Notice) : List (Nat × Document) := told.filterMap Notice.change?

/-- The numbers that commits are told under. -/
def numbers (told : List Notice) : List Nat := (changes told).map Prod.fst

theorem changes_append (a b : List Notice) : changes (a ++ b) = changes a ++ changes b :=
  List.filterMap_append

theorem numbers_append (a b : List Notice) : numbers (a ++ b) = numbers a ++ numbers b := by
  rw [numbers, changes_append, List.map_append]
  rfl

end Notice

namespace Store

open Notice

def withLog (s : Store) (log : EventLog Notice) : Store := { s with log }

/-- A step of a store tells some notices: these are what it adds to the log, and the log has no other
part in it. -/
def Tells {α : Type} (step : Store → Store × α) (s : Store) (told : List Notice) : Prop :=
  ∀ log, step (s.withLog log) = ((step s).1.withLog (log.recordAll told), (step s).2)

namespace Tells

variable {α : Type} {step : Store → Store × α} {s : Store} {a b : List Notice}

/-- There is but one list of notices that a step tells. -/
theorem unique (h : Tells step s a) (h' : Tells step s b) : a = b := by
  -- a log with room for both lists shows each of them as it is
  let log : EventLog Notice := { limit := a.length + b.length }
  have hsame : log.recordAll a = log.recordAll b :=
    congrArg (fun r => r.1.log) ((h log).symm.trans (h' log))
  have ha : (log.recordAll a).newest = a.reverse ++ [] :=
    EventLog.newest_recordAll (Nat.le_add_right a.length b.length)
  have hb : (log.recordAll b).newest = b.reverse ++ [] :=
    EventLog.newest_recordAll (Nat.le_add_left b.length a.length)
  rw [hsame, hb, List.append_nil, List.append_nil] at ha
  exact (List.reverse_inj.mp ha).symm

end Tells

/-- What is told while a store goes from one state to another: each commit once, under the next
number, and the last one with the document that there is then. -/
structure Ledger (s : Store) (told : List Notice) (s' : Store) : Prop where
  named : ∀ n ∈ told, n.toEvent.name = "documentChanged" ↔ n.change?.isSome = true
  numbers : numbers told = List.range' (s.revision + 1) (changes told).length
  revision : s'.revision = s.revision + (changes told).length
  document : s'.document = ((changes told).getLast?.map Prod.snd).getD s.document

namespace Ledger

variable {s mid s' : Store} {a b : List Notice} {d : Document} {history : History} {label : String}

theorem silent (h : (changes a) = []) (named : ∀ n ∈ a, n.toEvent.name ≠ "documentChanged")
    (revision : s'.revision = s.revision) (document : s'.document = s.document) : s.Ledger a s' := by
  refine ⟨?_, ?_, ?_, ?_⟩
  · intro n hn
    have hchange : n.change? = none := List.filterMap_eq_nil_iff.mp h n hn
    simp [named n hn, hchange]
  · simp [Notice.numbers, h]
  · simp [h, revision]
  · simp [h, document]

theorem refl (s : Store) : s.Ledger [] s := silent rfl (by simp) rfl rfl

theorem advance : s.Ledger [.changed d label (s.revision + 1)] (s.advance d history label) := by
  refine ⟨?_, rfl, rfl, rfl⟩
  intro n hn
  rw [List.mem_singleton.mp hn]
  simp [toEvent, Notice.change?]

theorem append (h : s.Ledger a mid) (h' : mid.Ledger b s') : s.Ledger (a ++ b) s' := by
  refine ⟨?_, ?_, ?_, ?_⟩
  · intro n hn
    rcases List.mem_append.mp hn with ha | hb
    · exact h.named n ha
    · exact h'.named n hb
  · rw [numbers_append, changes_append, List.length_append, h.numbers, h'.numbers, h.revision]
    have hstart : s.revision + (changes a).length + 1 = s.revision + 1 + (changes a).length := by
      omega
    rw [hstart]
    exact List.range'_append_1
  · rw [h'.revision, h.revision, changes_append, List.length_append, Nat.add_assoc]
  · rw [h'.document, h.document, changes_append, List.getLast?_append]
    cases (changes b).getLast? <;> rfl

/-- Whoever has heard the last commit has the document. -/
theorem getLast?_eq (h : s.Ledger a s') (later : s.revision < s'.revision) :
    (changes a).getLast? = some (s'.revision, s'.document) := by
  have hrevision := h.revision
  have hdocument := h.document
  have hnumber := congrArg List.getLast? h.numbers
  have hsome : (changes a).length ≠ 0 := by omega
  rw [Notice.numbers, List.getLast?_map, List.getLast?_range', if_neg hsome] at hnumber
  cases hlast : (changes a).getLast? with
  | none => simp [hlast] at hnumber
  | some last =>
    obtain ⟨number, document⟩ := last
    rw [hlast, Option.map_some, Option.some.injEq] at hnumber
    rw [hlast] at hdocument
    have hnumber' : number = s'.revision := by
      simp only at hnumber
      omega
    have hdocument' : document = s'.document := hdocument.symm
    rw [hnumber', hdocument']

end Ledger

/-- A move commits a document: a mutation with a change to make, a step through the history where
there is one to take, or another document. -/
def Commits (s : Store) : Move → Prop
  | .apply m => ∃ patch d, Draft.plan s.preset s.document m = .ok (patch, d) ∧ patch ≠ []
  | .undo => s.history.past ≠ []
  | .redo => s.history.future ≠ []
  | .load _ => True

/-- A move is a mutation that the rules of the document reject. -/
def Refuses (s : Store) (r : Rejection) : Move → Prop
  | .apply m => Draft.plan s.preset s.document m = .error (.rejected r)
  | _ => False

variable {s : Store} {t : Timeline} {m : Move}

/-! The three ways in which a move can go, whatever was logged before. -/

theorem Tracks.move_of_commits (h : s.Tracks t) (commits : s.Commits m) :
    ∃ d history label, ∀ log, (s.withLog log).move m =
      ((s.withLog log).advance d history label, .ok true) := by
  cases m with
  | apply m =>
    obtain ⟨patch, d, hplan, hne⟩ := commits
    exact ⟨d, s.history.record ⟨m.label, patch⟩, m.label, fun log =>
      apply_of_ne_nil (s := s.withLog log) hplan hne⟩
  | undo =>
    obtain ⟨past, present, future⟩ := t
    have hpast := h.past
    cases hcommits : s.history.past with
    | nil => exact absurd hcommits commits
    | cons c rest =>
      rw [hcommits] at hpast
      cases hpast with
      | @cons _ d _ _ docs head tail =>
        have hundo : c.patch.inverse.apply s.document = .ok d :=
          h.present ▸ head.inverse.apply_eq
        refine ⟨d, { s.history with past := rest, future := c :: s.history.future },
          s!"Undo {c.label}", ?_⟩
        intro log
        simp only [Store.move, Store.undo, Store.withLog, History.undo, hcommits, hundo,
          Outcome.ofFault_ok]
  | redo =>
    obtain ⟨past, present, future⟩ := t
    have hfuture := h.future
    cases hcommits : s.history.future with
    | nil => exact absurd hcommits commits
    | cons c rest =>
      rw [hcommits] at hfuture
      cases hfuture with
      | @cons _ d _ _ docs head tail =>
        have hredo : c.patch.apply s.document = .ok d := h.present ▸ head.apply_eq
        refine ⟨d, { s.history with
          past := (c :: s.history.past).take s.history.limit, future := rest },
          s!"Redo {c.label}", ?_⟩
        intro log
        simp only [Store.move, Store.redo, Store.withLog, History.redo, hcommits, hredo,
          Outcome.ofFault_ok]
  | load d => exact ⟨d, s.history.clear, "Load document", fun _ => rfl⟩

theorem move_of_refuses {r : Rejection} (h : s.Refuses r m) (log : EventLog Notice) :
    (s.withLog log).move m = (s.withLog (log.record (.refused r)), .error (.rejected r)) := by
  cases m with
  | apply m =>
    have hplan : Draft.plan (s.withLog log).preset (s.withLog log).document m =
      .error (.rejected r) := h
    rw [move, apply, hplan]
    rfl
  | undo | redo | load d => exact h.elim

theorem refuses_of_answer {m : Mutation} {r : Rejection} (h : (s.apply m).2 = .error (.rejected r)) :
    s.Refuses r (.apply m) := by
  cases hplan : Draft.plan s.preset s.document m with
  | error stop =>
    obtain ⟨log, happly⟩ := apply_of_stop hplan
    rw [happly] at h
    obtain rfl := Except.error.inj h
    exact hplan
  | ok result =>
    obtain ⟨patch, d⟩ := result
    cases patch with
    | nil => simp [apply_of_nil hplan] at h
    | cons c rest => simp [apply_of_ne_nil hplan (List.cons_ne_nil c rest)] at h

theorem move_of_neither (commits : ¬ s.Commits m) (refuses : ∀ r, ¬ s.Refuses r m) :
    ∃ answer, answer ≠ .ok true ∧ ∀ log, (s.withLog log).move m = (s.withLog log, answer) := by
  cases m with
  | apply m =>
    cases hplan : Draft.plan s.preset s.document m with
    | error stop =>
      cases stop with
      | rejected r => exact absurd hplan (refuses r)
      | fault f =>
        refine ⟨.error (.fault f), by simp, ?_⟩
        intro log
        have hplan' : Draft.plan (s.withLog log).preset (s.withLog log).document m =
          .error (.fault f) := hplan
        rw [move, apply, hplan']
    | ok result =>
      obtain ⟨patch, d⟩ := result
      cases patch with
      | nil => exact ⟨.ok false, by simp, fun log => apply_of_nil (s := s.withLog log) hplan⟩
      | cons c rest => exact absurd ⟨c :: rest, d, hplan, List.cons_ne_nil c rest⟩ commits
  | undo =>
    have hpast : s.history.past = [] := Classical.not_not.mp commits
    refine ⟨.ok false, by simp, ?_⟩
    intro log
    simp only [move, undo, withLog, History.undo, hpast, Outcome.ofFault_ok]
  | redo =>
    have hfuture : s.history.future = [] := Classical.not_not.mp commits
    refine ⟨.ok false, by simp, ?_⟩
    intro log
    simp only [move, redo, withLog, History.redo, hfuture, Outcome.ofFault_ok]
  | load d => exact absurd trivial commits

/-- An answer that says that a document was committed. -/
def committed : Except Stop Bool → Bool
  | .ok true => true
  | _ => false

theorem committed_iff {answer : Except Stop Bool} : committed answer = true ↔ answer = .ok true := by
  unfold committed
  split <;> simp_all

theorem Tells.of_withLog {α : Type} {step : Store → Store × α} {after : Store} {answer : α}
    {told : List Notice}
    (h : ∀ log, step (s.withLog log) = (after.withLog (log.recordAll told), answer)) :
    Tells step s told := by
  have hs : step s = (after.withLog (s.log.recordAll told), answer) := h s.log
  intro log
  rw [h log, hs]
  rfl

theorem Tells.advance {d : Document} {history : History} {label : String}
    (h : ∀ log, (s.withLog log).move m = ((s.withLog log).advance d history label, .ok true)) :
    Tells (·.move m) s [.changed d label (s.revision + 1)] := by
  let told : List Notice := [.changed d label (s.revision + 1)]
  have hmove : ∀ log, (s.withLog log).move m =
      ((s.advance d history label).withLog (log.recordAll told), .ok true) := h
  exact .of_withLog hmove

theorem Tells.refused {r : Rejection} (h : s.Refuses r m) : Tells (·.move m) s [.refused r] :=
  .of_withLog (move_of_refuses h)

theorem Tells.nothing {answer : Except Stop Bool}
    (h : ∀ log, (s.withLog log).move m = (s.withLog log, answer)) : Tells (·.move m) s [] :=
  .of_withLog h

/-- What a move tells, with its answer: a commit tells of itself and nothing else of any commit. -/
theorem Tracks.move_ledger (h : s.Tracks t) (m : Move) :
    ∃ told, Tells (·.move m) s told ∧ s.Ledger told (s.move m).1 ∧
      (changes told).length = [(s.move m).2].countP committed := by
  by_cases hcommits : s.Commits m
  · obtain ⟨d, history, label, hmove⟩ := h.move_of_commits hcommits
    have hs : s.move m = (s.advance d history label, .ok true) := hmove s.log
    rw [hs]
    exact ⟨_, .advance hmove, .advance, rfl⟩
  · by_cases hrefuses : ∃ r, s.Refuses r m
    · obtain ⟨r, hr⟩ := hrefuses
      have hs : s.move m = (s.withLog (s.log.record (.refused r)), .error (.rejected r)) :=
        move_of_refuses hr s.log
      rw [hs]
      refine ⟨_, .refused hr, .silent rfl ?_ rfl rfl, rfl⟩
      intro n hn
      rw [List.mem_singleton.mp hn]
      simp [toEvent]
    · obtain ⟨answer, hne, hmove⟩ := move_of_neither hcommits (not_exists.mp hrefuses)
      have hs : s.move m = (s, answer) := hmove s.log
      rw [hs]
      have hanswer : committed answer = false := by
        rw [Bool.eq_false_iff]
        exact fun htrue => hne (committed_iff.mp htrue)
      refine ⟨_, .nothing hmove, .refl _, ?_⟩
      simp [hanswer, changes]

theorem Tells.cons {m : Move} {rest : List Move} {a b : List Notice} (head : Tells (·.move m) s a)
    (tail : Tells (·.run rest) (s.move m).1 b) : Tells (·.run (m :: rest)) s (a ++ b) := by
  intro log
  have hhead : (s.withLog log).move m = ((s.move m).1.withLog (log.recordAll a), (s.move m).2) :=
    head log
  have htail := tail (log.recordAll a)
  simp only [run, hhead, EventLog.recordAll_append] at htail ⊢
  rw [htail]

/-- What is told over a whole run. -/
theorem Tracks.run_ledger (h : s.Tracks t) (moves : List Move) :
    ∃ told, Tells (·.run moves) s told ∧ s.Ledger told (s.run moves).1 ∧
      (changes told).length = (s.run moves).2.countP committed := by
  induction moves generalizing s t with
  | nil => exact ⟨[], fun _ => rfl, .refl _, rfl⟩
  | cons m rest ih =>
    obtain ⟨a, ha, hledger, hcount⟩ := h.move_ledger m
    obtain ⟨b, hb, hledgers, hcounts⟩ := ih (h.move m).1
    refine ⟨a ++ b, ha.cons hb, hledger.append hledgers, ?_⟩
    rw [changes_append, List.length_append, hcount, hcounts]
    exact List.countP_append.symm

theorem revision_of_create {p : Preset} {d : Document} {historyLimit : Option Int}
    {log : EventLog Notice} (h : create p d historyLimit log = .ok s) : s.revision = 0 := by
  obtain ⟨history, _, h⟩ := Outcome.bind_eq_ok.mp h
  rw [Outcome.pure_eq_ok, Except.ok.injEq] at h
  rw [← h]

/-- The ledger of a store agrees with its commits. Over a run the commits are told in order, under
the numbers from one to as many as there were, and the last one with the document of the store. Each
further move that commits raises the number by one and tells just of that; a rejection tells just of
itself; any other move tells nothing and leaves the store as it is. -/
theorem run_told {p : Preset} {d : Document} {historyLimit : Option Int} {log : EventLog Notice}
    (created : create p d historyLimit log = .ok s) (moves : List Move) :
    let now := (s.run moves).1
    (∃ told, Tells (·.run moves) s told ∧
      (∀ n ∈ told, n.toEvent.name = "documentChanged" ↔ n.change?.isSome = true) ∧
      numbers told = List.range' 1 now.revision ∧
      now.revision = (s.run moves).2.countP committed ∧
      (0 < now.revision → (changes told).getLast? = some (now.revision, now.document))) ∧
    ∀ m,
      let after := (now.move m).1
      (now.Commits m → (now.move m).2 = .ok true ∧ after.revision = now.revision + 1 ∧
        ∃ label, Tells (·.move m) now [.changed after.document label after.revision]) ∧
      (∀ r, now.Refuses r m → (now.move m).2 = .error (.rejected r) ∧
        after = now.withLog (now.log.record (.refused r)) ∧ Tells (·.move m) now [.refused r]) ∧
      (¬ now.Commits m → (∀ r, ¬ now.Refuses r m) → after = now ∧ Tells (·.move m) now []) := by
  intro now
  have htracks := Tracks.create created
  have hnow := (htracks.run moves).1
  have hzero : s.revision = 0 := revision_of_create created
  refine ⟨?_, ?_⟩
  · obtain ⟨told, htells, hledger, hcount⟩ := htracks.run_ledger moves
    have hrevision : now.revision = (changes told).length := by
      rw [hledger.revision, hzero, Nat.zero_add]
    refine ⟨told, htells, hledger.named, ?_, hrevision.trans hcount, ?_⟩
    · rw [hledger.numbers, hzero, hrevision]
    · intro hpos
      exact hledger.getLast?_eq (hzero ▸ hpos)
  · intro m after
    refine ⟨?_, ?_, ?_⟩
    · intro hcommits
      obtain ⟨d, history, label, hmove⟩ := hnow.move_of_commits hcommits
      have hs : now.move m = (now.advance d history label, .ok true) := hmove now.log
      have hafter : after = now.advance d history label := congrArg Prod.fst hs
      rw [hafter]
      exact ⟨congrArg Prod.snd hs, rfl, label, .advance hmove⟩
    · intro r hrefuses
      have hs : now.move m = (now.withLog (now.log.record (.refused r)), .error (.rejected r)) :=
        move_of_refuses hrefuses now.log
      exact ⟨congrArg Prod.snd hs, congrArg Prod.fst hs, .refused hrefuses⟩
    · intro hcommits hrefuses
      obtain ⟨answer, -, hmove⟩ := move_of_neither hcommits hrefuses
      exact ⟨congrArg Prod.fst (hmove now.log), .nothing hmove⟩

/-- Seven moves of which four commit: a batch without steps, a rejected removal and a step back that
there is none for are told as nothing or as themselves. The log keeps only two of the five notices. -/
theorem run_told_mixed :
    let p := Library.topology
    let d := Document.blank p
    let s : Store :=
      { preset := p, document := d, history := { limit := 100, limit_pos := by decide }
        log := { limit := 2 } }
    let moves : List Move :=
      [.apply (.addNode { id := "a", typeId := "cloud" }), .apply (.batch none []),
        .apply (.removeNode "b"), .undo, .undo, .redo, .load d]
    let now := (s.run moves).1
    create p d none { limit := 2 } = .ok s ∧ now.log.newest.length = 2 ∧
      (∃ told, Tells (·.run moves) s told ∧ numbers told = [1, 2, 3, 4] ∧
        (changes told).getLast? = some (4, d)) ∧
      (∃ label, Tells (·.move (.load d)) now [.changed d label 5]) ∧
      Tells (·.move (.apply (.removeNode "b"))) now [.refused (.noNode "b")] ∧
      Tells (·.move .undo) now [] := by
  intro p d s moves now
  have created : create p d none { limit := 2 } = .ok s := rfl
  obtain ⟨⟨told, htells, -, hnumbers, -, hlast⟩, hmove⟩ := run_told created moves
  have hrevision : now.revision = 4 := by decide
  have hdocument : now.document = d := rfl
  refine ⟨created, by decide, ⟨told, htells, ?_, ?_⟩, ?_, ?_, ?_⟩
  · rw [hnumbers, hrevision]
    rfl
  · have hpos : 0 < now.revision := by
      rw [hrevision]
      decide
    rw [hlast hpos]
    exact congrArg some (Prod.ext hrevision hdocument)
  · obtain ⟨-, -, htold⟩ := (hmove (.load d)).1 trivial
    exact htold
  · have hrefuses : now.Refuses (.noNode "b") (.apply (.removeNode "b")) := rfl
    exact ((hmove _).2.1 _ hrefuses).2.2
  · have hcommits : ¬ now.Commits .undo := fun hpast => hpast rfl
    exact ((hmove .undo).2.2 hcommits fun _ => id).2

end Store

end GraphWorkbench

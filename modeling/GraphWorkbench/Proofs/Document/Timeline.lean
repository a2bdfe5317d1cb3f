import GraphWorkbench.Document.Store
import GraphWorkbench.Library.Topology
import GraphWorkbench.Proofs.Document.Staging
/-!
A store keeps patches only, and still behaves as if it kept whole documents. `Timeline` is a bounded
zipper of documents; each move of a store is the same move of its timeline, with the same answer,
because every patch of the history leads from one document of the timeline to the next.
-/
namespace GraphWorkbench

/-- A document with those before it, the latest first, and those taken back, the next one first. -/
structure Timeline where
  past : List Document := []
  present : Document
  future : List Document := []

namespace Store

/-- What can be asked of a store. -/
inductive Move where
  | apply (m : Mutation)
  | undo
  | redo
  | load (d : Document)

/-- A store after a move, with the answer: whether the document was changed. -/
def move (s : Store) : Move → Store × Except Stop Bool
  | .apply m => s.apply m
  | .undo => (s.undo.1, Stop.ofFault s.undo.2)
  | .redo => (s.redo.1, Stop.ofFault s.redo.2)
  | .load d => (s.load d, .ok true)

/-- A store after some moves, with their answers. -/
def run (s : Store) : List Move → Store × List (Except Stop Bool)
  | [] => (s, [])
  | m :: rest =>
    let (s', answers) := (s.move m).1.run rest
    (s', (s.move m).2 :: answers)

end Store

namespace Timeline

/-- Makes a document the present one. Only the newest of those before it are kept. -/
def commit (limit : Nat) (t : Timeline) (d : Document) : Timeline :=
  { past := (t.present :: t.past).take limit, present := d }

/-- One step back, if there is one. -/
def back? : Timeline → Option Timeline
  | ⟨[], _, _⟩ => none
  | ⟨d :: past, present, future⟩ => some ⟨past, d, present :: future⟩

/-- One step forth, if there is one. -/
def forth? : Timeline → Option Timeline
  | ⟨_, _, []⟩ => none
  | ⟨past, present, d :: future⟩ => some ⟨present :: past, d, future⟩

/-- A step that may not be there; the answer tells whether it was. -/
def stepped (t : Timeline) : Option Timeline → Timeline × Except Stop Bool
  | some t' => (t', .ok true)
  | none => (t, .ok false)

/-- Commits a mutation. One that is stopped, or that changes nothing, leaves all as it is. -/
def apply (p : Preset) (limit : Nat) (t : Timeline) (m : Mutation) : Timeline × Except Stop Bool :=
  match Draft.plan p t.present m with
  | .error stop => (t, .error stop)
  | .ok (patch, d) => if patch.isEmpty then (t, .ok false) else (t.commit limit d, .ok true)

/-- The moves of a store on whole documents. -/
def move (p : Preset) (limit : Nat) (t : Timeline) : Store.Move → Timeline × Except Stop Bool
  | .apply m => t.apply p limit m
  | .undo => t.stepped t.back?
  | .redo => t.stepped t.forth?
  | .load d => ({ present := d }, .ok true)

def run (p : Preset) (limit : Nat) (t : Timeline) :
    List Store.Move → Timeline × List (Except Stop Bool)
  | [] => (t, [])
  | m :: rest =>
    let (t', answers) := (t.move p limit m).1.run p limit rest
    (t', (t.move p limit m).2 :: answers)

end Timeline

/-- Commits that led to a document, one after the other, from the listed earlier ones. -/
inductive Past : Document → List Commit → List Document → Prop
  | nil (d : Document) : Past d [] []
  | cons {d before : Document} {c : Commit} {commits : List Commit} {docs : List Document}
      (head : Trail before c.patch d) (tail : Past before commits docs) :
      Past d (c :: commits) (before :: docs)

/-- Commits that lead from a document, one after the other, to the listed later ones. -/
inductive Future : Document → List Commit → List Document → Prop
  | nil (d : Document) : Future d [] []
  | cons {d after : Document} {c : Commit} {commits : List Commit} {docs : List Document}
      (head : Trail d c.patch after) (tail : Future after commits docs) :
      Future d (c :: commits) (after :: docs)

namespace Past

variable {d : Document} {commits : List Commit} {docs : List Document}

theorem length_eq (h : Past d commits docs) : commits.length = docs.length := by
  induction h with
  | nil => rfl
  | cons _ _ ih => rw [List.length_cons, List.length_cons, ih]

/-- What comes before the oldest kept commits may be forgotten. -/
theorem take (h : Past d commits docs) (n : Nat) : Past d (commits.take n) (docs.take n) := by
  induction h generalizing n with
  | nil d =>
    rw [List.take_nil, List.take_nil]
    exact .nil d
  | @cons d before c commits docs head _ ih =>
    cases n with
    | zero => exact .nil d
    | succ n => exact .cons head (ih n)

end Past

theorem Future.length_eq {d : Document} {commits : List Commit} {docs : List Document}
    (h : Future d commits docs) : commits.length = docs.length := by
  induction h with
  | nil => rfl
  | cons _ _ ih => rw [List.length_cons, List.length_cons, ih]

theorem History.eq_of_ofLimit {limit : Int} {history : History}
    (h : ofLimit limit = .ok history) : history.past = [] ∧ history.future = [] := by
  unfold ofLimit at h
  split at h
  · rw [Except.ok.injEq] at h
    subst h
    exact ⟨rfl, rfl⟩
  · simp at h

theorem History.limit_of_undo {history history' : History} {c : Commit}
    (h : history.undo = some (c, history')) : history'.limit = history.limit := by
  unfold undo at h
  split at h
  · simp at h
  · rw [Option.some.injEq, Prod.mk.injEq] at h
    rw [← h.2]

theorem History.limit_of_redo {history history' : History} {c : Commit}
    (h : history.redo = some (c, history')) : history'.limit = history.limit := by
  unfold redo at h
  split at h
  · simp at h
  · rw [Option.some.injEq, Prod.mk.injEq] at h
    rw [← h.2]

namespace Store

variable {s : Store} {t : Timeline} {m : Mutation} {patch : Patch} {d : Document}

theorem of_create {p : Preset} {historyLimit : Option Int} {log : EventLog Notice}
    (h : create p d historyLimit log = .ok s) :
    s.preset = p ∧ s.document = d ∧ s.history.past = [] ∧ s.history.future = [] := by
  unfold create at h
  obtain ⟨history, hlimit, h⟩ := Outcome.bind_eq_ok.mp h
  rw [Outcome.pure_eq_ok, Except.ok.injEq] at h
  subst h
  exact ⟨rfl, rfl, History.eq_of_ofLimit hlimit⟩

/-! The three ways in which a mutation can go. -/

theorem apply_of_stop {stop : Stop} (h : Draft.plan s.preset s.document m = .error stop) :
    ∃ log, s.apply m = ({ s with log }, .error stop) := by
  cases stop with
  | rejected r => exact ⟨s.log.record (.refused r), by simp only [apply, h]⟩
  | fault f => exact ⟨s.log, by simp only [apply, h]⟩

theorem apply_of_nil (h : Draft.plan s.preset s.document m = .ok ([], d)) :
    s.apply m = (s, .ok false) := by
  simp only [apply, h, List.isEmpty_nil, if_true]

theorem apply_of_ne_nil (h : Draft.plan s.preset s.document m = .ok (patch, d)) (hne : patch ≠ []) :
    s.apply m = (s.advance d (s.history.record ⟨m.label, patch⟩) m.label, .ok true) := by
  have hempty : patch.isEmpty = false := by simpa using hne
  simp only [apply, h, hempty, Bool.false_eq_true, if_false]

/-- A store holds the present document of a timeline, and its history leads to all others. -/
structure Tracks (s : Store) (t : Timeline) : Prop where
  present : s.document = t.present
  past : Past t.present s.history.past t.past
  future : Future t.present s.history.future t.future
  bounded : t.past.length + t.future.length ≤ s.history.limit

namespace Tracks

theorem create {p : Preset} {historyLimit : Option Int} {log : EventLog Notice}
    (h : Store.create p d historyLimit log = .ok s) : s.Tracks { present := d } := by
  obtain ⟨_, hdocument, hpast, hfuture⟩ := of_create h
  refine ⟨hdocument, ?_, ?_, Nat.zero_le _⟩
  · rw [hpast]
    exact .nil d
  · rw [hfuture]
    exact .nil d

theorem apply (h : s.Tracks t) (m : Mutation) :
    (s.apply m).1.Tracks (t.apply s.preset s.history.limit m).1 ∧
    (s.apply m).2 = (t.apply s.preset s.history.limit m).2 := by
  unfold Timeline.apply
  rw [← h.present]
  cases hplan : Draft.plan s.preset s.document m with
  | error stop =>
    obtain ⟨log, hs⟩ := apply_of_stop hplan
    rw [hs]
    exact ⟨⟨h.present, h.past, h.future, h.bounded⟩, rfl⟩
  | ok result =>
    obtain ⟨patch, d⟩ := result
    cases patch with
    | nil =>
      rw [apply_of_nil hplan]
      exact ⟨h, rfl⟩
    | cons c rest =>
      rw [apply_of_ne_nil hplan (List.cons_ne_nil c rest)]
      -- store and timeline forget the same commits, as both keep the newest ones
      have hpast : Past d (⟨m.label, c :: rest⟩ :: s.history.past) (t.present :: t.past) :=
        .cons (h.present ▸ Draft.trail_of_plan hplan) h.past
      exact ⟨⟨rfl, hpast.take _, .nil d, List.length_take_le ..⟩, rfl⟩

theorem undo (h : s.Tracks t) :
    s.undo.1.Tracks (t.stepped t.back?).1 ∧ Stop.ofFault s.undo.2 = (t.stepped t.back?).2 := by
  obtain ⟨past, present, future⟩ := t
  have hpast := h.past
  have hb := h.bounded
  cases hcommits : s.history.past with
  | nil =>
    rw [hcommits] at hpast
    cases hpast
    rw [Store.undo, History.undo, hcommits]
    exact ⟨h, rfl⟩
  | cons c commits =>
    rw [hcommits] at hpast
    cases hpast with
    | @cons _ before _ _ docs head tail =>
      have hundo : c.patch.inverse.apply s.document = .ok before :=
        h.present ▸ head.inverse.apply_eq
      simp only [Store.undo, History.undo, hcommits, hundo]
      refine ⟨⟨rfl, tail, .cons head h.future, ?_⟩, rfl⟩
      simp only [List.length_cons] at hb
      change docs.length + (future.length + 1) ≤ s.history.limit
      omega

theorem redo (h : s.Tracks t) :
    s.redo.1.Tracks (t.stepped t.forth?).1 ∧ Stop.ofFault s.redo.2 = (t.stepped t.forth?).2 := by
  obtain ⟨past, present, future⟩ := t
  have hfuture := h.future
  have hb := h.bounded
  cases hcommits : s.history.future with
  | nil =>
    rw [hcommits] at hfuture
    cases hfuture
    rw [Store.redo, History.redo, hcommits]
    exact ⟨h, rfl⟩
  | cons c commits =>
    rw [hcommits] at hfuture
    cases hfuture with
    | @cons _ after _ _ docs head tail =>
      have hredo : c.patch.apply s.document = .ok after := h.present ▸ head.apply_eq
      simp only [List.length_cons] at hb
      -- the bound on both stacks together leaves room for the commit that comes back
      have hkeep : (c :: s.history.past).take s.history.limit = c :: s.history.past := by
        apply List.take_of_length_le
        have hlength : s.history.past.length = past.length := h.past.length_eq
        rw [List.length_cons, hlength]
        omega
      simp only [Store.redo, History.redo, hcommits, hredo, hkeep]
      refine ⟨⟨rfl, .cons head h.past, tail, ?_⟩, rfl⟩
      change past.length + 1 + docs.length ≤ s.history.limit
      omega

theorem load (s : Store) (d : Document) : (s.load d).Tracks { present := d } :=
  ⟨rfl, .nil d, .nil d, Nat.zero_le s.history.limit⟩

/-- A move of a store is the same move of its timeline, with the same answer. -/
theorem move (h : s.Tracks t) (m : Move) :
    (s.move m).1.Tracks (t.move s.preset s.history.limit m).1 ∧
    (s.move m).2 = (t.move s.preset s.history.limit m).2 := by
  cases m with
  | apply m => exact h.apply m
  | undo => exact h.undo
  | redo => exact h.redo
  | load d => exact ⟨load s d, rfl⟩

/-- The log has no part in it. -/
theorem withLog (h : s.Tracks t) (log : EventLog Notice) : ({ s with log } : Store).Tracks t :=
  ⟨h.present, h.past, h.future, h.bounded⟩

end Tracks

/-! The preset and the limit of a store stay what they are. -/

theorem apply_settings (s : Store) (m : Mutation) :
    (s.apply m).1.preset = s.preset ∧ (s.apply m).1.history.limit = s.history.limit := by
  cases hplan : Draft.plan s.preset s.document m with
  | error stop =>
    obtain ⟨log, hs⟩ := apply_of_stop hplan
    rw [hs]
    exact ⟨rfl, rfl⟩
  | ok result =>
    obtain ⟨patch, d⟩ := result
    cases patch with
    | nil =>
      rw [apply_of_nil hplan]
      exact ⟨rfl, rfl⟩
    | cons c rest =>
      rw [apply_of_ne_nil hplan (List.cons_ne_nil c rest)]
      exact ⟨rfl, rfl⟩

theorem undo_settings (s : Store) :
    s.undo.1.preset = s.preset ∧ s.undo.1.history.limit = s.history.limit := by
  unfold undo
  split
  next => exact ⟨rfl, rfl⟩
  next c history hundo =>
    have hlimit := History.limit_of_undo hundo
    split
    next => exact ⟨rfl, hlimit⟩
    next => exact ⟨rfl, hlimit⟩

theorem redo_settings (s : Store) :
    s.redo.1.preset = s.preset ∧ s.redo.1.history.limit = s.history.limit := by
  unfold redo
  split
  next => exact ⟨rfl, rfl⟩
  next c history hredo =>
    have hlimit := History.limit_of_redo hredo
    split
    next => exact ⟨rfl, hlimit⟩
    next => exact ⟨rfl, hlimit⟩

theorem move_settings (s : Store) (m : Move) :
    (s.move m).1.preset = s.preset ∧ (s.move m).1.history.limit = s.history.limit := by
  cases m with
  | apply m => exact s.apply_settings m
  | undo => exact s.undo_settings
  | redo => exact s.redo_settings
  | load d => exact ⟨rfl, rfl⟩

theorem run_settings (s : Store) (moves : List Move) :
    (s.run moves).1.preset = s.preset ∧ (s.run moves).1.history.limit = s.history.limit := by
  induction moves generalizing s with
  | nil => exact ⟨rfl, rfl⟩
  | cons m rest ih =>
    obtain ⟨hpreset, hlimit⟩ := s.move_settings m
    obtain ⟨hpresets, hlimits⟩ := ih (s.move m).1
    exact ⟨hpresets.trans hpreset, hlimits.trans hlimit⟩

theorem Tracks.run (h : s.Tracks t) (moves : List Move) :
    (s.run moves).1.Tracks (t.run s.preset s.history.limit moves).1 ∧
    (s.run moves).2 = (t.run s.preset s.history.limit moves).2 := by
  induction moves generalizing s t with
  | nil => exact ⟨h, rfl⟩
  | cons m rest ih =>
    obtain ⟨hmove, hanswer⟩ := h.move m
    obtain ⟨hpreset, hlimit⟩ := s.move_settings m
    obtain ⟨hrun, hanswers⟩ := ih hmove
    rw [hpreset, hlimit] at hrun hanswers
    refine ⟨hrun, ?_⟩
    change (s.move m).2 :: ((s.move m).1.run rest).2 = _
    rw [hanswer, hanswers]
    rfl

/-- A step back is taken exactly when there is one, and it never fails. -/
theorem Tracks.undo_answer (h : s.Tracks t) : s.undo.2 = .ok (!t.past.isEmpty) := by
  apply Outcome.ofFault_eq_ok.mp
  rw [h.undo.2]
  obtain ⟨past, present, future⟩ := t
  cases past <;> rfl

theorem Tracks.redo_answer (h : s.Tracks t) : s.redo.2 = .ok (!t.future.isEmpty) := by
  apply Outcome.ofFault_eq_ok.mp
  rw [h.redo.2]
  obtain ⟨past, present, future⟩ := t
  cases future <;> rfl

/-- A store behaves as a bounded zipper of whole documents, whatever is asked of it in whatever
order. It holds the present document of the zipper, order included, and gives its answers; it can
take a step back or forth exactly when the zipper can, and never fails to; and the documents before
and after the present one together are never more than the limit, so that none is lost on the way
forth. -/
theorem run_eq_timeline {p : Preset} {d : Document} {historyLimit : Option Int}
    {log : EventLog Notice} {s : Store} (created : create p d historyLimit log = .ok s)
    (moves : List Move) :
    let after := s.run moves
    let timeline := Timeline.run p s.history.limit { present := d } moves
    after.1.document = timeline.1.present ∧
    after.2 = timeline.2 ∧
    after.1.undo.2 = .ok (!timeline.1.past.isEmpty) ∧
    after.1.redo.2 = .ok (!timeline.1.future.isEmpty) ∧
    after.1.history.past.length = timeline.1.past.length ∧
    after.1.history.future.length = timeline.1.future.length ∧
    timeline.1.past.length + timeline.1.future.length ≤ s.history.limit := by
  intro after timeline
  have hpreset : s.preset = p := (of_create created).1
  obtain ⟨htracks, hanswers⟩ := (Tracks.create created).run moves
  obtain ⟨_, hlimit⟩ := s.run_settings moves
  rw [hpreset] at htracks hanswers
  exact ⟨htracks.present, hanswers, htracks.undo_answer, htracks.redo_answer,
    htracks.past.length_eq, htracks.future.length_eq, hlimit ▸ htracks.bounded⟩

/-- Of three commits a store of two keeps the latest ones: two steps back are taken, the third is
not, and one step forth finds what was taken back last. -/
theorem run_eq_timeline_of_two :
    let p := Library.topology
    let d := Document.blank p
    let s : Store :=
      { preset := p, document := d, history := { limit := 2, limit_pos := by decide }
        log := { limit := 5 } }
    let moves : List Move :=
      [.apply (.addNode { id := "a", typeId := "cloud" }),
        .apply (.addNode { id := "b", typeId := "cloud" }),
        .apply (.batch none [.removeNode "a", .addNode { id := "a", typeId := "cloud" }]),
        .apply (.removeNode "c"), .undo, .undo, .undo, .redo]
    let after := s.run moves
    let timeline := Timeline.run p s.history.limit { present := d } moves
    create p d (some 2) { limit := 5 } = .ok s ∧
    after.1.document = timeline.1.present ∧
    after.2 = timeline.2 ∧
    after.1.undo.2 = .ok (!timeline.1.past.isEmpty) ∧
    after.1.redo.2 = .ok (!timeline.1.future.isEmpty) ∧
    timeline.1.past.length + timeline.1.future.length ≤ s.history.limit ∧
    after.1.document.nodes.keys = ["a", "b"] ∧
    after.2.map Except.toOption = [some true, some true, some true, none, some true, some true,
      some false, some true] := by
  intro p d s moves after timeline
  have created : create p d (some 2) { limit := 5 } = .ok s := rfl
  obtain ⟨hdocument, hanswers, hundo, hredo, _, _, hbound⟩ := run_eq_timeline created moves
  have hkeys : after.1.document.nodes.keys = ["a", "b"] := by decide
  have hlist : after.2.map Except.toOption = [some true, some true, some true, none, some true,
      some true, some false, some true] := by decide
  exact ⟨created, hdocument, hanswers, hundo, hredo, hbound, hkeys, hlist⟩

end Store

end GraphWorkbench

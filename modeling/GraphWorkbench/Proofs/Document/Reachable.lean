import GraphWorkbench.Proofs.Document.Loading
import GraphWorkbench.Proofs.Document.Timeline
import GraphWorkbench.Stix.Import
/-!
Reachable stores. A step through the history brings back a document that was there before, so what
holds of every document of the timeline stays true: all documents of a reachable store are sound.
-/
namespace GraphWorkbench

/-- A preset that says nothing of histories has room for commits. -/
theorem Behavior.historyLimit_pos : 0 < ({} : Behavior).historyLimit := by decide

namespace Timeline

variable {P : Document → Prop} {p : Preset} {limit : Nat} {t : Timeline} {d : Document}

/-- A property of all documents of a timeline. -/
structure All (P : Document → Prop) (t : Timeline) : Prop where
  past : ∀ d ∈ t.past, P d
  present : P t.present
  future : ∀ d ∈ t.future, P d

namespace All

theorem single (h : P d) : All P { present := d } :=
  ⟨by simp, h, by simp⟩

theorem commit (h : t.All P) (hd : P d) : (t.commit limit d).All P := by
  refine ⟨?_, hd, by simp [Timeline.commit]⟩
  intro before hbefore
  rcases List.mem_cons.mp (List.mem_of_mem_take hbefore) with rfl | hpast
  · exact h.present
  · exact h.past before hpast

theorem apply (h : t.All P) (m : Mutation)
    (plans : ∀ {d patch d'}, Draft.plan p d m = .ok (patch, d') → P d → P d') :
    (t.apply p limit m).1.All P := by
  unfold Timeline.apply
  split
  next => exact h
  next patch d hplan =>
    split
    · exact h
    · exact h.commit (plans hplan h.present)

theorem back (h : t.All P) : (t.stepped t.back?).1.All P := by
  obtain ⟨past, present, future⟩ := t
  cases past with
  | nil => exact h
  | cons d past =>
    obtain ⟨hd, hpast⟩ := List.forall_mem_cons.mp h.past
    exact ⟨hpast, hd, List.forall_mem_cons.mpr ⟨h.present, h.future⟩⟩

theorem forth (h : t.All P) : (t.stepped t.forth?).1.All P := by
  obtain ⟨past, present, future⟩ := t
  cases future with
  | nil => exact h
  | cons d future =>
    obtain ⟨hd, hfuture⟩ := List.forall_mem_cons.mp h.future
    exact ⟨List.forall_mem_cons.mpr ⟨h.present, h.past⟩, hd, hfuture⟩

end All

end Timeline

/-- What an import comes to for the store: at most one mutation, and what is told of it. -/
theorem Stix.importInto_store (s : Store) (o : Options) (origin : Bundle.Origin)
    (cancelled : Bool) :
    ∃ log, (importInto s o origin cancelled).1 = { s with log } ∨
      ∃ m, (importInto s o origin cancelled).1 = { (s.apply m).1 with log } := by
  unfold importInto
  split
  next => exact ⟨s.log, .inl rfl⟩
  next b report c accepted _ =>
    by_cases hc : cancelled = true
    · rw [if_pos hc]
      exact ⟨s.log, .inl rfl⟩
    · rw [if_neg hc]
      unfold commit
      by_cases hempty : accepted.isEmpty = true
      · rw [if_pos hempty]
        exact ⟨_, .inl rfl⟩
      · rw [if_neg hempty]
        let m : Mutation := .batch (some importLabel) (accepted.map Item.mutation)
        cases hm : s.apply m with
        | mk after outcome =>
          cases outcome with
          | error stop => exact ⟨after.log, .inr ⟨m, by simp [m, hm, Except.map]⟩⟩
          | ok changed =>
            let told := announce after (summarize b report c accepted)
            exact ⟨told.log, .inr ⟨m, by simp [m, hm, told, Except.map, announce]⟩⟩

namespace Store

/-- The stores of a preset that can come about: started on an empty document with a title, or on a
loaded one, under any changes, steps through the history, loads and imports. -/
inductive Reachable (p : Preset) : Store → Prop
  | blank {title : String} {historyLimit : Option Int} {log : EventLog Notice} {s : Store}
      (titled : title ≠ "") (created : create p (.blank p title) historyLimit log = .ok s) :
      Reachable p s
  | loaded {v : Json} {d : Document} {historyLimit : Option Int} {log : EventLog Notice} {s : Store}
      (loads : Exchange.load p v = .ok (.ok d)) (created : create p d historyLimit log = .ok s) :
      Reachable p s
  | apply {s : Store} (h : Reachable p s) (m : Mutation) : Reachable p (s.apply m).1
  | undo {s : Store} (h : Reachable p s) : Reachable p s.undo.1
  | redo {s : Store} (h : Reachable p s) : Reachable p s.redo.1
  | load {s : Store} {v : Json} {d : Document} (h : Reachable p s)
      (loads : Exchange.load p v = .ok (.ok d)) : Reachable p (s.load d)
  | importInto {s : Store} (h : Reachable p s) (o : Stix.Options) (origin : Stix.Bundle.Origin)
      (cancelled : Bool) : Reachable p (Stix.importInto s o origin cancelled).1

/-- All documents that a store holds, or can bring back, have a property. -/
def Keeps (P : Document → Prop) (s : Store) : Prop := ∃ t, s.Tracks t ∧ t.All P

namespace Keeps

variable {P : Document → Prop} {p : Preset} {s : Store} {d : Document}

theorem document (h : s.Keeps P) : P s.document := by
  obtain ⟨t, htracks, hall⟩ := h
  rw [htracks.present]
  exact hall.present

theorem create {historyLimit : Option Int} {log : EventLog Notice} (hd : P d)
    (h : Store.create p d historyLimit log = .ok s) : s.Keeps P :=
  ⟨_, .create h, .single hd⟩

theorem apply (h : s.Keeps P) (m : Mutation)
    (plans : ∀ {d patch d'}, Draft.plan s.preset d m = .ok (patch, d') → P d → P d') :
    (s.apply m).1.Keeps P := by
  obtain ⟨t, htracks, hall⟩ := h
  exact ⟨_, (htracks.apply m).1, hall.apply m plans⟩

theorem applySound (h : s.Keeps (Document.Sound p)) (preset : s.preset = p) (m : Mutation) :
    (s.apply m).1.Keeps (Document.Sound p) := by
  subst preset
  exact h.apply m fun hplan hd => Draft.plan_keeps Effect.sound hplan hd

theorem undo (h : s.Keeps P) : s.undo.1.Keeps P := by
  obtain ⟨t, htracks, hall⟩ := h
  exact ⟨_, htracks.undo.1, hall.back⟩

theorem redo (h : s.Keeps P) : s.redo.1.Keeps P := by
  obtain ⟨t, htracks, hall⟩ := h
  exact ⟨_, htracks.redo.1, hall.forth⟩

theorem load (s : Store) (hd : P d) : (s.load d).Keeps P := ⟨_, .load s d, .single hd⟩

theorem withLog (h : s.Keeps P) (log : EventLog Notice) : ({ s with log } : Store).Keeps P := by
  obtain ⟨t, htracks, hall⟩ := h
  exact ⟨t, htracks.withLog log, hall⟩

end Keeps

namespace Reachable

variable {p : Preset} {s : Store}

/-- A reachable store is one of its preset, and all documents that it can bring back are sound. -/
theorem invariant (h : Reachable p s) : s.preset = p ∧ s.Keeps (Document.Sound p) := by
  induction h with
  | blank titled created =>
    exact ⟨(of_create created).1, .create (Document.sound_blank titled) created⟩
  | loaded loads created =>
    exact ⟨(of_create created).1, .create (Exchange.sound_of_load loads) created⟩
  | @apply s _ m ih =>
    obtain ⟨hpreset, hkeeps⟩ := ih
    exact ⟨(s.apply_settings m).1.trans hpreset, hkeeps.applySound hpreset m⟩
  | @undo s _ ih => exact ⟨s.undo_settings.1.trans ih.1, ih.2.undo⟩
  | @redo s _ ih => exact ⟨s.redo_settings.1.trans ih.1, ih.2.redo⟩
  | load _ loads ih => exact ⟨ih.1, .load _ (Exchange.sound_of_load loads)⟩
  | @importInto s _ o origin cancelled ih =>
    obtain ⟨hpreset, hkeeps⟩ := ih
    obtain ⟨log, hs | ⟨m, hs⟩⟩ := Stix.importInto_store s o origin cancelled
    · rw [hs]
      exact ⟨hpreset, hkeeps.withLog log⟩
    · rw [hs]
      exact ⟨(s.apply_settings m).1.trans hpreset, (hkeeps.applySound hpreset m).withLog log⟩

theorem sound (h : Reachable p s) : s.document.Sound p := h.invariant.2.document

end Reachable

/-- An empty store of a preset. -/
def opened (p : Preset) : Store :=
  { preset := p, document := .blank p
    history := { limit := 100, limit_pos := Behavior.historyLimit_pos }, log := { limit := 5 } }

/-- The store of a preset after a batch of mutations, if it is accepted. -/
def grown (p : Preset) (steps : List Mutation) : Store := ((opened p).apply (.batch none steps)).1

theorem preset_grown (p : Preset) (steps : List Mutation) : (grown p steps).preset = p :=
  ((opened p).apply_settings (.batch none steps)).1

theorem valid_grown (p : Preset) (steps : List Mutation) : (grown p steps).document.Valid p := by
  have hcreated : create p (.blank p untitled) (some 100) { limit := 5 } = .ok (opened p) := rfl
  have hopened : Reachable p (opened p) := .blank (by decide) hcreated
  have hgrown : Reachable p (grown p steps) := .apply hopened _
  exact hgrown.sound.valid

end Store

end GraphWorkbench

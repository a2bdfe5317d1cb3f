import GraphWorkbench.Proofs.Document.Validity
import GraphWorkbench.Proofs.Json
/-!
What is loaded is sound: a loaded document was put together by staging its elements one by one on an
empty document.
-/
namespace GraphWorkbench.Exchange

open Outcome

variable {p : Preset} {state state' : Loading}

/-- A document that is being put together. -/
def Underway (p : Preset) (state : Loading) : Prop :=
  state.1.Recorded ∧ state.1.working.Sound p

theorem stageAt_keeps {place : String} {m : Mutation} (h : stageAt p place state m = .ok state')
    (hstate : Underway p state) : Underway p state' := by
  have hstage := Draft.stage_keeps (p := p) Effect.sound m hstate
  unfold stageAt at h
  split at h
  next draft hs =>
    rw [Except.ok.injEq] at h
    subst h
    rwa [hs] at hstage
  next draft r hs =>
    rw [Except.ok.injEq] at h
    subst h
    rwa [hs] at hstage
  next => simp at h

/-- An element that cannot be read, or that asks for nothing, leaves the draft as it is. -/
theorem loadElement_keeps {α : Type} {kind : String} {decode : Json → Schema.Decoded α}
    {mutation? : α → Option Mutation} {item : Json × Nat}
    (h : loadElement p kind decode mutation? state item = .ok state')
    (hstate : Underway p state) : Underway p state' := by
  unfold loadElement at h
  split at h
  next issues _ =>
    rw [Except.ok.injEq] at h
    subst h
    exact hstate
  next element _ =>
    split at h
    next m _ => exact stageAt_keeps h hstate
    next =>
      rw [Except.ok.injEq] at h
      exact h ▸ hstate

theorem titleOf_ne_empty (metadata : List (String × Json)) : titleOf metadata ≠ "" := by
  unfold titleOf
  split
  next v _ =>
    by_cases htrue : v.isTruthy = true
    · rw [if_pos htrue]
      exact Json.text_ne_empty htrue
    · rw [if_neg htrue]
      decide
  next => decide

/-- A loaded document is sound. -/
theorem sound_of_load {v : Json} {d : Document} (h : load p v = .ok (.ok d)) : d.Sound p := by
  unfold load at h
  split at h
  next fields =>
    simp only [bind_eq_ok] at h
    obtain ⟨mid, hnodes, last, hedges, h⟩ := h
    -- the draft starts out on an empty document, and both rounds of elements keep it sound
    have hblank : Underway p (Draft.start (Document.blank p (titleOf (metadataFields fields).1)),
        (metadataFields fields).2 ++ presetMismatch p (metadataFields fields).1 ++
          (elements fields "nodes").2) :=
      ⟨Draft.recorded_start _, Document.sound_blank (titleOf_ne_empty _)⟩
    have hmid : Underway p mid := foldlM_induct loadElement_keeps hnodes hblank
    have hlast : Underway p last := foldlM_induct loadElement_keeps hedges hmid
    rw [pure_eq_ok, Except.ok.injEq] at h
    split at h
    · rw [Except.ok.injEq] at h
      subst h
      rw [hlast.1.result_eq]
      exact hlast.2
    · simp at h
  next => simp [pure_eq_ok] at h

end GraphWorkbench.Exchange

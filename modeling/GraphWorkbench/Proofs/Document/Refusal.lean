import GraphWorkbench.Proofs.Document.Faults
/-!
Refusals last. Every check that refuses a new element also refuses it in a larger document: ids that
are taken stay taken, room does not come back, and an edge that clashes with another one still does.
Only an edge whose end is missing can be accepted later, when the node has come; so for edges the
nodes must be the same.
-/
namespace GraphWorkbench

open Outcome

namespace Outcome

variable {α β γ : Type}

/-- A computation ends in a refusal. -/
def Rejects (x : Except Stop α) : Prop := ∃ r, x = .error (.rejected r)

namespace Rejects

theorem of_bind {x : Except Stop α} {f : α → Except Stop β} {g : α → Except Stop γ}
    (h : Rejects (x >>= f)) (next : ∀ a, x = .ok a → Rejects (f a) → Rejects (g a)) :
    Rejects (x >>= g) := by
  cases x with
  | ok a => exact next a rfl h
  | error stop =>
    obtain ⟨r, hr⟩ := h
    exact ⟨r, congrArg Except.error (Except.error.inj hr)⟩

/-- A check can give way to a stricter one that meets no fault. -/
theorem of_bind_stricter {x x' : Except Stop Unit} {f : Unit → Except Stop α}
    {g : Unit → Except Stop β} (h : Rejects (x >>= f)) (stricter : x' = .ok () → x = .ok ())
    (refuses : StopsOnly x' (Stop.Only fun _ => False)) (next : Rejects (f ()) → Rejects (g ())) :
    Rejects (x' >>= g) := by
  cases hx' : x' with
  | ok u =>
    rw [stricter hx'] at h
    exact next h
  | error stop =>
    cases stop with
    | rejected r => exact ⟨r, rfl⟩
    | fault f => exact absurd hx' (refuses (.fault f))

theorem bind {x : Except Stop α} {f : α → Except Stop β} (h : Rejects x) : Rejects (x >>= f) := by
  obtain ⟨r, rfl⟩ := h
  exact ⟨r, rfl⟩

/-- What comes after cannot have been refused. -/
theorem of_bind_ok {x : Except Stop α} {f : α → Except Stop β} (h : Rejects (x >>= f))
    (after : ∀ a, ∃ b, f a = .ok b) : Rejects x := by
  cases x with
  | error stop =>
    obtain ⟨r, hr⟩ := h
    exact ⟨r, congrArg Except.error (Except.error.inj hr)⟩
  | ok a =>
    obtain ⟨b, hb⟩ := after a
    obtain ⟨r, hr⟩ := h
    exact nomatch hb.symm.trans hr

end Rejects

end Outcome

/-- All that a document holds is in another one as well. -/
structure Document.Within (d d' : Document) : Prop where
  nodeKeys : ∀ key, d.nodes.has key = true → d'.nodes.has key = true
  edgeKeys : ∀ key, d.edges.has key = true → d'.edges.has key = true
  edges : ∀ e ∈ d.edges.values, e ∈ d'.edges.values
  nodesSize : d.nodes.size ≤ d'.nodes.size
  edgesSize : d.edges.size ≤ d'.edges.size

theorem Preset.rejects_checkEdge {p : Preset} {nodes : Table Node} {edges edges' : Table Edge}
    {e : Edge} (h : Rejects (p.checkEdge nodes edges e))
    (more : ∀ o ∈ edges.values, o ∈ edges'.values) : Rejects (p.checkEdge nodes edges' e) := by
  refine h.of_bind fun r hr h => h.of_bind fun source _ h => h.of_bind fun target _ h => ?_
  refine h.of_bind fun sourceType _ h => h.of_bind fun targetType _ h => ?_
  by_cases hfits : (!r.fits sourceType targetType) = true
  · rw [if_pos hfits]
    exact ⟨_, rfl⟩
  · rw [if_neg hfits] at h ⊢
    refine h.of_bind_stricter ?_ checkMultiplicity_stops fun h => h
    -- an edge that has room beside more edges has room beside some of them
    have hruled := relationshipOf_eq_ok.mp hr
    rw [checkMultiplicity_eq_ok_iff_bears hruled, checkMultiplicity_eq_ok_iff_bears hruled]
    exact fun hall o ho => hall o (more o ho)

namespace Draft

variable {p : Preset} {d d' : Draft} {n : Node} {e : Edge}

theorem rejects_addNode (position : Position) (h : Rejects (d.addNode p n))
    (within : d.working.Within d'.working) :
    Rejects (d'.addNode p { n with position }) := by
  unfold addNode at h ⊢
  cases hnew : d'.working.nodes.has n.id with
  | true => exact ⟨_, rfl⟩
  | false =>
    have hfresh : d.working.nodes.has n.id = false := by
      rw [← Bool.not_eq_true] at hnew ⊢
      exact fun hthere => hnew (within.nodeKeys _ hthere)
    simp only [hfresh, Bool.false_eq_true, if_false] at h ⊢
    refine h.of_bind_stricter ?_ Preset.checkNodeRoom_stops fun h => ?_
    · simp only [Preset.checkNodeRoom_eq_ok]
      exact Nat.lt_of_le_of_lt within.nodesSize
    · have hchecked : Rejects (p.checkNode n) :=
        h.of_bind_ok fun _ => ⟨_, congrArg Stop.ofFault (insertNode_eq hfresh)⟩
      -- the check of the node itself does not look at its position
      have hchecked' : Rejects (p.checkNode { n with position }) := hchecked
      exact hchecked'.bind

theorem rejects_addEdge (h : Rejects (d.addEdge p e)) (same : d'.working.nodes = d.working.nodes)
    (within : d.working.Within d'.working) : Rejects (d'.addEdge p e) := by
  unfold addEdge at h ⊢
  cases hinferred : e.inferred with
  | true => exact ⟨_, rfl⟩
  | false =>
  cases hnew : d'.working.edges.has e.id with
  | true => exact ⟨_, rfl⟩
  | false =>
    have hfresh : d.working.edges.has e.id = false := by
      rw [← Bool.not_eq_true] at hnew ⊢
      exact fun hthere => hnew (within.edgeKeys _ hthere)
    simp only [hinferred, hfresh, Bool.false_eq_true, if_false] at h ⊢
    refine h.of_bind_stricter ?_ Preset.checkEdgeRoom_stops fun h => ?_
    · simp only [Preset.checkEdgeRoom_eq_ok]
      exact Nat.lt_of_le_of_lt within.edgesSize
    · have hchecked : Rejects (p.checkEdge d.working.nodes d.working.edges e) :=
        h.of_bind_ok fun _ => ⟨_, congrArg Stop.ofFault (insertEdge_eq hfresh)⟩
      rw [same]
      exact (Preset.rejects_checkEdge hchecked within.edges).bind

theorem rejects_of_attempt {x : Except Stop Draft} {r : Rejection}
    (h : d.attempt x = (d', some (.rejected r))) : Rejects x := by
  cases x with
  | ok next => exact absurd (congrArg Prod.snd h) (by simp [attempt])
  | error stop => exact ⟨r, congrArg Except.error (Option.some.inj (congrArg Prod.snd h))⟩

theorem attempt_of_rejects {x : Except Stop Draft} (h : Rejects x) (d : Draft) :
    ∃ r, d.attempt x = (d, some (.rejected r)) := by
  obtain ⟨r, rfl⟩ := h
  exact ⟨r, rfl⟩

end Draft

end GraphWorkbench

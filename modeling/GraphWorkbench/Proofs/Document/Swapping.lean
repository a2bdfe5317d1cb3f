import GraphWorkbench.Proofs.Document.Reload
/-!
Additions in another order. A node that is added takes nothing away that an edge is checked against,
and an edge takes nothing away that a node is checked against. So nodes that were added after edges
can be added before them, to the same end.
-/
namespace GraphWorkbench

open Outcome

/-- Mutations that are no batches are accepted one after another. -/
inductive Effects (p : Preset) : Document → List Mutation → Document → Prop
  | nil (d : Document) : Effects p d [] d
  | cons {d mid d' : Document} {m : Mutation} {rest : List Mutation} (first : Effect p d m mid)
      (others : Effects p mid rest d') : Effects p d (m :: rest) d'

section

variable {p : Preset} {d mid d' : Document} {e : Edge} {n : Node} {ms rest : List Mutation}

namespace Effects

theorem append (h : Effects p d ms mid) (h' : Effects p mid rest d') :
    Effects p d (ms ++ rest) d' := by
  induction h with
  | nil => exact h'
  | cons first _ ih => exact .cons first (ih h')

theorem split (h : Effects p d (ms ++ rest) d') :
    ∃ mid, Effects p d ms mid ∧ Effects p mid rest d' := by
  induction ms generalizing d with
  | nil => exact ⟨d, .nil d, h⟩
  | cons m ms ih =>
    cases h with
    | cons first others =>
      obtain ⟨mid, hms, hrest⟩ := ih others
      exact ⟨mid, .cons first hms, hrest⟩

end Effects

/-- A further node does not keep an edge out. -/
theorem Preset.checkEdge_put_node {nodes : Table Node} {edges : Table Edge}
    (h : p.checkEdge nodes edges e = .ok ()) (fresh : nodes.has n.id = false) :
    p.checkEdge (nodes.put n.id n) edges e = .ok () := by
  have hend : ∀ {key a}, endOf nodes e key = .ok a → endOf (nodes.put n.id n) e key = .ok a := by
    intro key a ha
    rw [endOf_eq_ok] at ha ⊢
    have hne : key ≠ n.id := by
      rintro rfl
      exact Bool.false_ne_true (fresh.symm.trans (Table.has_iff_exists.mpr ⟨a, ha⟩))
    rw [Table.get?_put, if_neg hne, ha]
  unfold checkEdge at h ⊢
  simp only [bind_eq_ok] at h ⊢
  obtain ⟨r, hr, source, hs, target, ht, hrest⟩ := h
  exact ⟨r, hr, source, hend hs, target, hend ht, hrest⟩

/-- An edge and then a node: the node can come first. -/
theorem Effect.swap (first : Effect p d (.addEdge e) mid) (second : Effect p mid (.addNode n) d') :
    ∃ mid', Effect p d (.addNode n) mid' ∧ Effect p mid' (.addEdge e) d' := by
  cases first with
  | addEdge authored freshEdge roomEdge checkedEdge =>
    cases second with
    | addNode fresh room checked =>
      exact ⟨_, .addNode fresh room checked, .addEdge authored freshEdge roomEdge
        (Preset.checkEdge_put_node checkedEdge fresh)⟩

namespace Effects

variable {nodes edges : List Mutation}

theorem swap_nodes (first : Effect p d (.addEdge e) mid) (ns : ∀ m ∈ nodes, ∃ n, m = .addNode n)
    (others : Effects p mid nodes d') :
    ∃ mid', Effects p d nodes mid' ∧ Effect p mid' (.addEdge e) d' := by
  induction nodes generalizing d mid with
  | nil =>
    cases others
    exact ⟨d, .nil d, first⟩
  | cons m rest ih =>
    obtain ⟨⟨n, rfl⟩, hrest⟩ := List.forall_mem_cons.mp ns
    cases others with
    | cons second others =>
      obtain ⟨_, hnode, hedge⟩ := first.swap second
      obtain ⟨mid', hnodes, hlast⟩ := ih hedge hrest others
      exact ⟨mid', .cons hnode hnodes, hlast⟩

/-- Edges and then nodes: the nodes can come first. -/
theorem swap (es : ∀ m ∈ edges, ∃ e, m = .addEdge e) (ns : ∀ m ∈ nodes, ∃ n, m = .addNode n)
    (first : Effects p d edges mid) (others : Effects p mid nodes d') :
    ∃ mid', Effects p d nodes mid' ∧ Effects p mid' edges d' := by
  -- along the edges, each of which is taken past the nodes after those behind it
  induction edges generalizing d with
  | nil =>
    cases first
    exact ⟨d', others, .nil d'⟩
  | cons m rest ih =>
    obtain ⟨⟨e, rfl⟩, hrest⟩ := List.forall_mem_cons.mp es
    cases first with
    | cons first later =>
      obtain ⟨_, hnodes, hedges⟩ := ih hrest later
      obtain ⟨mid', hnodes', hedge⟩ := swap_nodes first ns hnodes
      exact ⟨mid', hnodes', .cons hedge hedges⟩

end Effects

/-- What has an effect on the working copy can be carried out on the draft. -/
theorem Draft.perform_of_effect {draft : Draft} {m : Mutation}
    (adds : (∃ n, m = .addNode n) ∨ ∃ e, m = .addEdge e) (h : Effect p draft.working m d') :
    ∃ draft', Draft.perform p draft m = (draft', none) ∧ draft'.working = d' := by
  rcases adds with ⟨n, rfl⟩ | ⟨e, rfl⟩
  · cases h with
    | addNode fresh room checked =>
      have hstage := stage_addNode fresh room (Preset.checkNode_eq_ok_iff.mp checked)
      exact ⟨_, (stage_of_single rfl).symm.trans hstage, rfl⟩
  · cases h with
    | addEdge authored fresh room checked =>
      have hstage := stage_addEdge authored fresh room checked
      exact ⟨_, (stage_of_single rfl).symm.trans hstage, rfl⟩

end

end GraphWorkbench

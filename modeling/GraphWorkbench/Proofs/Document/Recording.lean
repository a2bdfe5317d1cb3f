import GraphWorkbench.Proofs.Document.Trail
import GraphWorkbench.Proofs.Outcome
/-!
What a draft records. Each operation on a draft makes one change, which leads from the working copy
to the next one, so a draft always stands at the end of the trail of its log.
-/
namespace GraphWorkbench

open Outcome

namespace Change

variable {α : Type} {t : Table α} {key : String} {old value : α}

theorem leads_put_new (fresh : t.has key = false) :
    (Change.insert key t.size value).Leads t (t.put key value) :=
  have at_place : t.entries = t.entries ++ [] := (List.append_nil t.entries).symm
  .insert at_place fresh (Table.entries_put_new fresh)

theorem leads_put_at {before after : List (String × α)}
    (h : t.entries = before ++ (key, old) :: after) :
    (Change.replace key before.length old value).Leads t (t.put key value) :=
  .replace h (Table.entries_put_at h)

theorem leads_erase_at {before after : List (String × α)}
    (h : t.entries = before ++ (key, value) :: after) :
    (Change.delete key before.length value).Leads t (t.erase key) :=
  .delete h (Table.entries_erase_at h)

end Change

namespace Draft

variable {d d' d'' : Draft} {key : String} {n : Node} {e : Edge}

/-- A draft after a change that led to a working copy. -/
def push (d : Draft) (c : ElementChange) (working : Document) : Draft :=
  { d with working, log := c :: d.log }

theorem make_eq_push {c : ElementChange} {working : Document} (h : c.Leads d.working working) :
    d.make c = .ok (d.push c working) := by
  rw [make, h.apply_eq]
  rfl

/-- One draft goes on from another: it has made the listed changes since, in their order. -/
structure Extends (d : Draft) (changes : Patch) (d' : Draft) : Prop where
  base : d'.base = d.base
  log : d'.log = changes.reverse ++ d.log
  trail : Trail d.working changes d'.working

namespace Extends

variable {p q : Patch}

theorem refl (d : Draft) : Extends d [] d := ⟨rfl, rfl, .nil d.working⟩

theorem trans (h : Extends d p d') (h' : Extends d' q d'') : Extends d (p ++ q) d'' := by
  refine ⟨h'.base.trans h.base, ?_, h.trail.append h'.trail⟩
  rw [h'.log, h.log, List.reverse_append, List.append_assoc]

theorem push {c : ElementChange} {working : Document} (h : c.Leads d.working working) :
    Extends d [c] (d.push c working) :=
  ⟨rfl, rfl, .single h⟩

/-- Taking a draft back to where another one went on from gives that other one, without a fault. -/
theorem rollback_eq (h : Extends d p d') : d'.rollback d.mark = (d, none) := by
  -- what stands on the log above the mark is exactly what was done since
  have hcount : d'.log.length - d.mark = p.reverse.length := by
    rw [h.log, mark, List.length_append, Nat.add_sub_cancel]
  have hundo : undoAll d'.working p.reverse = (d.working, none) :=
    Trail.undoAll_eq (by simpa using h.trail)
  have htake : d'.log.take p.reverse.length = p.reverse := by rw [h.log, List.take_left]
  have hdrop : d'.log.drop p.reverse.length = d.log := by rw [h.log, List.drop_left]
  simp only [rollback, hcount, htake, hdrop, hundo]
  rw [h.base]

end Extends

/-- A draft whose log tells how its working copy came about. -/
def Recorded (d : Draft) : Prop := Trail d.base d.patch d.working

theorem recorded_start (d : Document) : (start d).Recorded := .nil d

theorem Recorded.extends (h : d.Recorded) {p : Patch} (he : Extends d p d') : d'.Recorded := by
  unfold Recorded at h ⊢
  rw [he.base, patch, he.log, List.reverse_append, List.reverse_reverse]
  exact h.append he.trail

theorem Recorded.result_eq (h : d.Recorded) : d.result = d.working := by
  unfold result
  split
  next hempty =>
    rw [Recorded, patch, List.isEmpty_iff.mp hempty] at h
    exact h.eq_of_nil
  next => rfl

/-! What each operation comes to, and when it does. -/

theorem entry_at {α : Type} {t : Table α} {value : α} {before after : List (String × α)}
    (h : t.entries = before ++ (key, value) :: after) :
    entry t key = .ok (value, before.length) := by
  rw [entry, Table.get?_of_at h, Table.indexOf?_of_at h]

theorem entry_eq_error {α : Type} {t : Table α} (h : t.get? key = none) :
    entry t key = .error (.noKey key) := by
  rw [entry, h]

theorem insertNode_eq (fresh : d.working.nodes.has key = false) :
    d.insertNode key n = .ok (d.push (.node (.insert key d.working.nodes.size n))
      { d.working with nodes := d.working.nodes.put key n }) :=
  make_eq_push (.node (Change.leads_put_new fresh))

theorem insertEdge_eq (fresh : d.working.edges.has key = false) :
    d.insertEdge key e = .ok (d.push (.edge (.insert key d.working.edges.size e))
      { d.working with edges := d.working.edges.put key e }) :=
  make_eq_push (.edge (Change.leads_put_new fresh))

section Place

variable {beforeNodes afterNodes : List (String × Node)} {oldNode : Node}
  {beforeEdges afterEdges : List (String × Edge)} {oldEdge : Edge}

theorem replaceNode_at
    (h : d.working.nodes.entries = beforeNodes ++ (key, oldNode) :: afterNodes) :
    d.replaceNode key n = .ok (d.push (.node (.replace key beforeNodes.length oldNode n))
      { d.working with nodes := d.working.nodes.put key n }) := by
  rw [replaceNode, entry_at h]
  exact make_eq_push (.node (Change.leads_put_at h))

theorem replaceEdge_at
    (h : d.working.edges.entries = beforeEdges ++ (key, oldEdge) :: afterEdges) :
    d.replaceEdge key e = .ok (d.push (.edge (.replace key beforeEdges.length oldEdge e))
      { d.working with edges := d.working.edges.put key e }) := by
  rw [replaceEdge, entry_at h]
  exact make_eq_push (.edge (Change.leads_put_at h))

theorem deleteNode_at
    (h : d.working.nodes.entries = beforeNodes ++ (key, oldNode) :: afterNodes) :
    d.deleteNode key = .ok (d.push (.node (.delete key beforeNodes.length oldNode))
      { d.working with nodes := d.working.nodes.erase key }) := by
  rw [deleteNode, entry_at h]
  exact make_eq_push (.node (Change.leads_erase_at h))

theorem deleteEdge_at
    (h : d.working.edges.entries = beforeEdges ++ (key, oldEdge) :: afterEdges) :
    d.deleteEdge key = .ok (d.push (.edge (.delete key beforeEdges.length oldEdge))
      { d.working with edges := d.working.edges.erase key }) := by
  rw [deleteEdge, entry_at h]
  exact make_eq_push (.edge (Change.leads_erase_at h))

end Place

end Draft

end GraphWorkbench

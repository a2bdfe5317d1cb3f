import Mathlib.Data.List.Induction
import Mathlib.Data.List.Nodup
import Mathlib.Data.List.Perm.Subperm
import Mathlib.Logic.Relation
import GraphWorkbench.Inference.View
/-!
What can be reached in the graph of one relationship. Spreading comes to all nodes at the ends of
walks, since each round but the last one reaches a new node. So the descendants of a node are the
nodes that walks along arcs lead to, its ancestors those from which they come, and its component
holds what walks along arcs and against them lead to.
-/
namespace GraphWorkbench

theorem nodup_eraseDups (names : List String) : names.eraseDups.Nodup := by
  -- from the end of the list, since of equal items the first one stays
  induction names using List.reverseRecOn with
  | nil => exact List.nodup_nil
  | append_singleton earlier n ih =>
    rw [List.eraseDups_append]
    by_cases hn : n ∈ earlier
    · have hnone : [n].removeAll earlier = [] := by simpa [List.removeAll] using hn
      rwa [hnone, List.eraseDups_nil, List.append_nil]
    · have hone : [n].removeAll earlier = [n] := by simpa [List.removeAll] using hn
      rw [hone, List.nodup_append]
      refine ⟨ih, List.nodup_singleton n, ?_⟩
      rintro a ha b hb rfl
      exact hn (List.mem_singleton.mp hb ▸ List.mem_eraseDups.mp ha)

namespace Chain

open Relation

variable {c : Chain} {a b node name : String}

/-- An arc leads from one node to another. -/
def Arc (c : Chain) (a b : String) : Prop := (a, b) ∈ c.arcs

/-- Both ends of every arc are nodes. -/
def Closed (c : Chain) : Prop := ∀ a b, c.Arc a b → a ∈ c.nodes ∧ b ∈ c.nodes

theorem mem_successors : name ∈ c.successors node ↔ c.Arc node name := by
  simp [successors, Arc]

theorem mem_predecessors : name ∈ c.predecessors node ↔ c.Arc name node := by
  simp [predecessors, Arc]

theorem arc_undirected : c.undirected.Arc a b ↔ SymmGen c.Arc a b := by
  change c.undirected.Arc a b ↔ c.Arc a b ∨ c.Arc b a
  simp [undirected, Arc]

theorem Closed.undirected (closed : c.Closed) : c.undirected.Closed := by
  intro a b harc
  rcases arc_undirected.mp harc with hforth | hback
  · exact closed a b hforth
  · exact (closed b a hback).symm

/-! Spreading. -/

section Spreading

variable {next : String → List String} {rounds : Nat} {latest seen nodes : List String}

theorem mem_fresh :
    name ∈ fresh next latest seen ↔ (∃ n ∈ latest, name ∈ next n) ∧ name ∉ seen := by
  simp [fresh]

theorem nodup_append_fresh (nodup : seen.Nodup) : (seen ++ fresh next latest seen).Nodup := by
  refine List.nodup_append.mpr ⟨nodup, nodup_eraseDups _, ?_⟩
  rintro a ha b hb rfl
  exact (mem_fresh.mp hb).2 ha

theorem nodup_spread (nodup : seen.Nodup) : (spread next rounds latest seen).Nodup := by
  induction rounds generalizing latest seen with
  | zero => exact nodup
  | succ rounds ih =>
    rw [spread]
    split
    · exact nodup
    · exact ih (nodup_append_fresh nodup)

/-- What holds of the nodes that a spread starts from, and is carried to those that come next, holds
of all nodes that it comes to. -/
theorem of_mem_spread {P : String → Prop} (carried : ∀ n, P n → ∀ m ∈ next n, P m)
    (front : ∀ n ∈ latest, P n) (start : ∀ n ∈ seen, P n)
    (h : name ∈ spread next rounds latest seen) : P name := by
  induction rounds generalizing latest seen with
  | zero => exact start name h
  | succ rounds ih =>
    rw [spread] at h
    split at h
    · exact start name h
    · have hfresh : ∀ n ∈ fresh next latest seen, P n := by
        intro n hn
        obtain ⟨⟨earlier, hearlier, hnext⟩, _⟩ := mem_fresh.mp hn
        exact carried earlier (front earlier hearlier) n hnext
      exact ih hfresh (List.forall_mem_append.mpr ⟨start, hfresh⟩) h

/-- A spread that has rounds enough to see all nodes ends with what no step leads out of. The front
holds all nodes seen whose steps are still to be taken. -/
theorem spread_closed (leads : ∀ n ∈ nodes, ∀ m ∈ next n, m ∈ nodes) (nodup : seen.Nodup)
    (within : ∀ n ∈ seen, n ∈ nodes) (front : ∀ n ∈ latest, n ∈ seen)
    (taken : ∀ n ∈ seen, n ∉ latest → ∀ m ∈ next n, m ∈ seen)
    (enough : nodes.length < rounds + seen.length) :
    (∀ n ∈ seen, n ∈ spread next rounds latest seen) ∧
      ∀ n ∈ spread next rounds latest seen, ∀ m ∈ next n, m ∈ spread next rounds latest seen := by
  induction rounds generalizing latest seen with
  | zero =>
    -- more nodes than there are cannot have been seen
    have hle := (List.subperm_of_subset nodup within).length_le
    omega
  | succ rounds ih =>
    rw [spread]
    split
    next hempty =>
      refine ⟨fun n hn => hn, fun n hn m hm => ?_⟩
      by_cases hlatest : n ∈ latest
      · by_contra hnew
        have hmem : m ∈ fresh next latest seen := mem_fresh.mpr ⟨⟨n, hlatest, hm⟩, hnew⟩
        exact List.not_mem_nil (List.isEmpty_iff.mp hempty ▸ hmem)
      · exact taken n hn hlatest m hm
    next hsome =>
      have hwithin : ∀ n ∈ seen ++ fresh next latest seen, n ∈ nodes := by
        refine List.forall_mem_append.mpr ⟨within, fun m hm => ?_⟩
        obtain ⟨⟨n, hn, hnext⟩, _⟩ := mem_fresh.mp hm
        exact leads n (within n (front n hn)) m hnext
      have htaken : ∀ n ∈ seen ++ fresh next latest seen, n ∉ fresh next latest seen →
          ∀ m ∈ next n, m ∈ seen ++ fresh next latest seen := by
        intro n hn hold m hm
        have hseen : n ∈ seen := (List.mem_append.mp hn).resolve_right hold
        by_cases hm' : m ∈ seen
        · exact List.mem_append_left _ hm'
        by_cases hlatest : n ∈ latest
        · exact List.mem_append_right _ (mem_fresh.mpr ⟨⟨n, hlatest, hm⟩, hm'⟩)
        · exact absurd (taken n hseen hlatest m hm) hm'
      -- a round that goes on has seen one more node at least
      have hlength : 0 < (fresh next latest seen).length := by
        rw [List.length_pos_iff]
        simpa using hsome
      have henough : nodes.length < rounds + (seen ++ fresh next latest seen).length := by
        rw [List.length_append]
        omega
      obtain ⟨hkept, hclosed⟩ := ih (nodup_append_fresh nodup) hwithin
        (fun n hn => List.mem_append_right _ hn) htaken henough
      exact ⟨fun n hn => hkept n (List.mem_append_left _ hn), hclosed⟩

theorem nodup_reached : (c.reached next node).Nodup := nodup_spread (List.nodup_singleton node)

theorem of_mem_reached {P : String → Prop} (carried : ∀ n, P n → ∀ m ∈ next n, P m) (start : P node)
    (h : name ∈ c.reached next node) : P name := by
  have hstart : ∀ n ∈ [node], P n := by simpa using start
  exact of_mem_spread carried hstart hstart h

/-- From one of the nodes all ends of walks are reached. -/
theorem mem_reached (leads : ∀ n ∈ c.nodes, ∀ m ∈ next n, m ∈ c.nodes) (known : node ∈ c.nodes) :
    name ∈ c.reached next node ↔ ReflTransGen (fun a b => b ∈ next a) node name := by
  constructor
  · exact of_mem_reached (fun _ walk _ hnext => walk.tail hnext) .refl
  · have henough : c.nodes.length < c.nodes.length + [node].length := by simp
    obtain ⟨hstart, hclosed⟩ : (∀ n ∈ [node], n ∈ c.reached next node) ∧
        ∀ n ∈ c.reached next node, ∀ m ∈ next n, m ∈ c.reached next node :=
      spread_closed leads (List.nodup_singleton node) (by simpa using known) (fun _ hn => hn)
        (fun n hn hold => absurd hn hold) henough
    intro walk
    induction walk with
    | refl => exact hstart node (List.mem_singleton_self node)
    | tail _ hnext ih => exact hclosed _ ih _ hnext

end Spreading

/-! The graph of a relationship is followed along the arcs, against them, or both ways. -/

section Following

theorem mem_reached_successors (closed : c.Closed) (known : node ∈ c.nodes) :
    name ∈ c.reached c.successors node ↔ ReflTransGen c.Arc node name := by
  have hleads : ∀ n ∈ c.nodes, ∀ m ∈ c.successors n, m ∈ c.nodes :=
    fun n _ m hm => (closed n m (mem_successors.mp hm)).2
  rw [mem_reached hleads known]
  simp only [mem_successors]

theorem mem_descendants (closed : c.Closed) (known : node ∈ c.nodes) :
    name ∈ c.descendants node ↔ name ≠ node ∧ ReflTransGen c.Arc node name := by
  rw [descendants, List.mem_filter, mem_reached_successors closed known, bne_iff_ne, and_comm]

theorem mem_ancestors (closed : c.Closed) (known : node ∈ c.nodes) :
    name ∈ c.ancestors node ↔ name ≠ node ∧ ReflTransGen c.Arc name node := by
  have hleads : ∀ n ∈ c.nodes, ∀ m ∈ c.predecessors n, m ∈ c.nodes :=
    fun n _ m hm => (closed m n (mem_predecessors.mp hm)).1
  rw [ancestors, List.mem_filter, mem_reached hleads known, bne_iff_ne, and_comm]
  simp only [mem_predecessors]
  exact and_congr_right fun _ => reflTransGen_swap

theorem mem_component (closed : c.Closed) (known : node ∈ c.nodes) :
    name ∈ c.component node ↔ ReflTransGen (SymmGen c.Arc) node name := by
  have harc : c.undirected.Arc = SymmGen c.Arc :=
    funext fun _ => funext fun _ => propext arc_undirected
  rw [component, mem_reached_successors closed.undirected known, harc]

end Following

end Chain

end GraphWorkbench

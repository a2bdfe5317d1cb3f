import GraphWorkbench.Proofs.Inference.Hops
import GraphWorkbench.Proofs.Sorting
/-!
What can be reached in a graph. Following a step some number of times comes to the ends of the walks
of that length, hop by hop. An arc leads between two nodes in the graph of a relationship where a hop
does; so what is reached there is what the paths find that repeat a step.
-/
namespace GraphWorkbench

namespace GraphView

variable {v : GraphView} {s : PathStep} {node name : String} {k : Nat}

open Relation

/-- A step leads from one node to another. -/
def Hop (v : GraphView) (s : PathStep) (a b : String) : Prop := b ∈ v.step s a

theorem Closed.has_of_hop (closed : v.Closed) (known : v.nodes.has node = true)
    (hop : v.Hop s node name) : v.nodes.has name = true := by
  obtain ⟨l, hl, _, ⟨_, _, rfl⟩ | ⟨_, rfl, _⟩⟩ := (mem_step_iff_leads known).mp hop
  · exact (closed l hl).2
  · exact (closed l hl).1

theorem Closed.has_of_walk (closed : v.Closed) (known : v.nodes.has node = true)
    (walk : ReflTransGen (v.Hop s) node name) : v.nodes.has name = true := by
  induction walk with
  | refl => exact known
  | tail _ hop ih => exact closed.has_of_hop ih hop

/-! Arcs and hops. -/

section Arcs

theorem Closed.chain (closed : v.Closed) (typeId : String) : (v.chain typeId).Closed := by
  intro a b harc
  obtain ⟨l, hl, _, rfl, rfl⟩ := arc_chain.mp harc
  obtain ⟨hsource, htarget⟩ := closed l hl
  exact ⟨(Table.has_iff_mem_keys _ _).mp hsource, (Table.has_iff_mem_keys _ _).mp htarget⟩

/-- An arc leads from one node to another as a step asks for: along it, against it, or either way. -/
def Along (v : GraphView) (s : PathStep) : String → String → Prop :=
  match s.direction with
  | .outward => (v.chain s.relationship).Arc
  | .inward => Function.swap (v.chain s.relationship).Arc
  | .either => SymmGen (v.chain s.relationship).Arc

theorem hop_iff_along (known : v.nodes.has node = true) :
    v.Hop s node name ↔ v.Along s node name := by
  unfold Hop Along
  rw [mem_step_iff_leads known]
  unfold Leads
  cases s.direction with
  | outward =>
    change _ ↔ (v.chain s.relationship).Arc node name
    rw [arc_chain]
    grind
  | inward =>
    change _ ↔ (v.chain s.relationship).Arc name node
    rw [arc_chain]
    grind
  | either =>
    change _ ↔ (v.chain s.relationship).Arc node name ∨ (v.chain s.relationship).Arc name node
    rw [arc_chain, arc_chain]
    grind

theorem Closed.has_of_along (closed : v.Closed) (along : v.Along s node name) :
    v.nodes.has node = true := by
  refine (Table.has_iff_mem_keys _ _).mpr ?_
  have hclosed := closed.chain s.relationship
  unfold Along at along
  generalize s.direction = direction at along
  cases direction with
  | outward => exact (hclosed _ _ along).1
  | inward => exact (hclosed _ _ along).2
  | either => exact along.elim (fun harc => (hclosed _ _ harc).1) fun harc => (hclosed _ _ harc).2

/-- From a node of the graph, walks take hops where they take arcs. -/
theorem Closed.walk_iff_along (closed : v.Closed) (known : v.nodes.has node = true) :
    ReflTransGen (v.Hop s) node name ↔ ReflTransGen (v.Along s) node name := by
  -- a name that is no node can have hops by its letters, but no walk comes to such a name
  constructor
  · intro walk
    induction walk with
    | refl => exact .refl
    | tail walk hop ih => exact ih.tail ((hop_iff_along (closed.has_of_walk known walk)).mp hop)
  · intro walk
    induction walk with
    | refl => exact .refl
    | tail _ along ih => exact ih.tail ((hop_iff_along (closed.has_of_along along)).mpr along)

end Arcs

/-- What is reached by repeating a step are the other nodes to which walks lead. -/
theorem Closed.mem_reachable (closed : v.Closed) (known : v.nodes.has node = true) :
    name ∈ v.reachable s node ↔ name ≠ node ∧ ReflTransGen (v.Hop s) node name := by
  have hclosed := closed.chain s.relationship
  have hnode : node ∈ (v.chain s.relationship).nodes := (Table.has_iff_mem_keys _ _).mp known
  rw [closed.walk_iff_along known]
  unfold reachable Along
  cases s.direction with
  | outward => exact Chain.mem_descendants hclosed hnode
  | inward => exact (Chain.mem_ancestors hclosed hnode).trans (and_congr_right' reflTransGen_swap.symm)
  | either =>
    rw [List.mem_filter, Chain.mem_component hclosed hnode, bne_iff_ne, and_comm]

theorem nodup_reachable : (v.reachable s node).Nodup := by
  unfold reachable
  cases s.direction with
  | outward => exact Chain.nodup_reached.filter _
  | inward => exact Chain.nodup_reached.filter _
  | either => exact Chain.nodup_reached.filter _

theorem Closed.reach_eq_filter (closed : v.Closed) (known : v.nodes.has node = true) :
    v.reach s node = v.nodes.keys.filter (v.reachable s node).contains := by
  refine mergeSort_idxOf v.nodes.nodup nodup_reachable fun name hname => ?_
  have hwalk := ((closed.mem_reachable known).mp hname).2
  exact (Table.has_iff_mem_keys _ _).mp (closed.has_of_walk known hwalk)

/-! Following a step. -/

/-- The nodes to which a step leads that is followed a number of times. -/
def front (v : GraphView) (s : PathStep) (node : String) (k : Nat) : List String :=
  (List.replicate k s).foldl (fun front s => (front.flatMap (v.step s)).eraseDups) [node]

theorem mem_front_succ :
    name ∈ v.front s node (k + 1) ↔ ∃ mid ∈ v.front s node k, v.Hop s mid name := by
  unfold front Hop
  rw [List.replicate_succ', List.foldl_append, List.foldl_cons, List.foldl_nil,
    List.mem_eraseDups, List.mem_flatMap]

theorem exists_mem_front_iff :
    (∃ k, name ∈ v.front s node k) ↔ ReflTransGen (v.Hop s) node name := by
  constructor
  · rintro ⟨k, hk⟩
    induction k generalizing name with
    | zero => exact List.mem_singleton.mp hk ▸ .refl
    | succ k ih =>
      obtain ⟨mid, hmid, hop⟩ := mem_front_succ.mp hk
      exact (ih hmid).tail hop
  · intro walk
    induction walk with
    | refl => exact ⟨0, List.mem_singleton_self node⟩
    | tail _ hop ih =>
      obtain ⟨k, hk⟩ := ih
      exact ⟨k + 1, mem_front_succ.mpr ⟨_, hk, hop⟩⟩

theorem mem_pathEnds_replicate :
    name ∈ v.pathEnds (List.replicate k s) node ↔ name ≠ node ∧ name ∈ v.front s node k := by
  unfold pathEnds front
  rw [List.mem_filter, bne_iff_ne, and_comm]

/-- Where a graph has both ends of all its links, repeating a step from one of its nodes finds, in the
order of the graph and each of them once, the nodes that are found along some path which follows that
step one or more times. -/
theorem targets_transitive_iff_path (closed : v.Closed) (known : v.nodes.has node = true)
    (rule : Derivation) (s : PathStep) (rest : List PathStep) :
    ∃ ts, v.targets { rule with kind := .transitive, via := s :: rest } node = .ok ts ∧
      ts.Nodup ∧ ts.Sublist v.nodes.keys ∧
      ∀ name, name ∈ ts ↔ name ≠ node ∧ ∃ k, 1 ≤ k ∧ ∃ ends,
        v.targets { rule with kind := .path, via := List.replicate k s } node = .ok ends ∧
          name ∈ ends := by
  have hrun : v.targets { rule with kind := .transitive, via := s :: rest } node =
      .ok (v.reach s node) := reachFirst_of_has known s rest
  have hsub : (v.reach s node).Sublist v.nodes.keys := by
    rw [closed.reach_eq_filter known]
    exact List.filter_sublist
  refine ⟨v.reach s node, hrun, v.nodes.nodup.sublist hsub, hsub, fun name => ?_⟩
  have hmem : name ∈ v.reach s node ↔ name ∈ v.reachable s node := List.mem_mergeSort
  rw [hmem, closed.mem_reachable known]
  constructor
  · rintro ⟨hother, walk⟩
    obtain ⟨k, hk⟩ := exists_mem_front_iff.mpr walk
    refine ⟨hother, k, ?_, _, rfl, mem_pathEnds_replicate.mpr ⟨hother, hk⟩⟩
    -- no step at all leads to the node itself
    rw [Nat.one_le_iff_ne_zero]
    rintro rfl
    exact hother (List.mem_singleton.mp hk)
  · rintro ⟨hother, k, _, ends, hends, hname⟩
    obtain rfl := Except.ok.inj hends
    exact ⟨hother, exists_mem_front_iff.mp ⟨k, (mem_pathEnds_replicate.mp hname).2⟩⟩

end GraphView

namespace Inference

open GraphView

/-- Edges from the hub through the hosts and back, with one from a host to itself. -/
def reachRing : List Edge :=
  [{ id := "ab", typeId := "reach", source := "a", target := "b" },
    { id := "bb", typeId := "reach", source := "b", target := "b" },
    { id := "bc", typeId := "reach", source := "b", target := "c" },
    { id := "ca", typeId := "reach", source := "c", target := "a" }]

/-- Going round from the second of three nodes finds the others, the last one two steps away, and not
that node again. -/
theorem targets_transitive_reachRing :
    let v := ofDocument cablingPreset cabledRow reachRing
    let s : PathStep := { relationship := "reach", direction := .outward }
    let rule : Derivation := { kind := .transitive, via := [s] }
    v.Closed ∧ v.nodes.has "b" = true ∧ v.targets rule "b" = .ok ["a", "c"] ∧
      v.targets { rule with kind := .path, via := [s, s] } "b" = .ok ["a", "c"] ∧
      ∃ k, 1 ≤ k ∧ ∃ ends,
        v.targets { rule with kind := .path, via := List.replicate k s } "b" = .ok ends ∧
          "a" ∈ ends := by
  intro v s rule
  have hclosed : v.Closed := closed_ofDocument _ _ _
  have hknown : v.nodes.has "b" = true := by decide +kernel
  have hfound : v.targets rule "b" = .ok ["a", "c"] := by
    have hreach : v.reach s "b" = ["a", "c"] := by
      rw [hclosed.reach_eq_filter hknown]
      decide +kernel
    exact (reachFirst_of_has hknown s []).trans (congrArg Except.ok hreach)
  have htwice : (v.targets { rule with kind := .path, via := [s, s] } "b").toOption =
      some ["a", "c"] := by
    decide +kernel
  obtain ⟨ts, hts, _, _, hmem⟩ := targets_transitive_iff_path hclosed hknown rule s []
  obtain rfl : ts = ["a", "c"] := Except.ok.inj (hts.symm.trans hfound)
  obtain ⟨_, hends⟩ := (hmem "a").mp (by simp)
  exact ⟨hclosed, hknown, hfound, Outcome.eq_ok_of_toOption htwice, hends⟩

end Inference

end GraphWorkbench

import GraphWorkbench.Inference.Targets
import GraphWorkbench.Proofs.Document.Validity
import GraphWorkbench.Proofs.Inference.Chain
import GraphWorkbench.Proofs.Preset.WellFormed
/-!
What the graph of a document shows: its nodes with their properties, and links between these nodes
only. On such a graph every derivation of a well-formed preset finds its targets, and they are nodes
of the document.
-/
namespace GraphWorkbench

open Outcome

/-- Both ends of an edge are nodes of the document. -/
def Document.Connects (d : Document) (e : Edge) : Prop :=
  d.nodes.has e.source = true ∧ d.nodes.has e.target = true

theorem Preset.Joins.connects {p : Preset} {d : Document} {r : Relationship} {e : Edge}
    (h : p.Joins d.nodes r e) : d.Connects e := by
  obtain ⟨source, target, _, _, hsource, htarget, _⟩ := h
  exact ⟨Table.has_iff_exists.mpr ⟨source, hsource⟩, Table.has_iff_exists.mpr ⟨target, htarget⟩⟩

namespace GraphView

variable {p : Preset} {d : Document} {v : GraphView} {name node : String} {names : List String}

/-- The graph has the nodes of a document, with all that is known of them, and no others. -/
structure Shows (d : Document) (v : GraphView) : Prop where
  nodes : v.nodes = d.nodes.mapValues fun n => some n.properties
  links : ∀ l ∈ v.links, d.nodes.has l.source = true ∧ d.nodes.has l.target = true

section Building

variable {l : Link} {e : Edge} {derived : List Edge}

theorem mem_putLink {a : Link} {links : List Link} (h : a ∈ putLink l links) :
    a = l ∨ a ∈ links := by
  induction links with
  | nil => exact .inl (List.mem_singleton.mp h)
  | cons b rest ih =>
    rw [putLink] at h
    split at h
    · rcases List.mem_cons.mp h with hl | hrest
      · exact .inl hl
      · exact .inr (List.mem_cons_of_mem _ hrest)
    · rcases List.mem_cons.mp h with hb | hrest
      · exact .inr (hb ▸ List.mem_cons_self ..)
      · exact (ih hrest).imp_right (List.mem_cons_of_mem _)

theorem Shows.has_eq (h : v.Shows d) : v.nodes.has name = d.nodes.has name := by
  rw [h.nodes, Table.has_mapValues]

theorem Shows.mention_eq (h : v.Shows d) (known : d.nodes.has name = true) :
    v.mention name = v :=
  if_pos (h.has_eq.trans known)

theorem Shows.addLink (h : v.Shows d) (source : d.nodes.has l.source = true)
    (target : d.nodes.has l.target = true) : (v.addLink l).Shows d := by
  -- both ends are nodes already, so only the links change
  have hview : v.addLink l = { v with links := putLink l v.links } := by
    rw [GraphView.addLink, h.mention_eq source, h.mention_eq target]
  rw [hview]
  refine ⟨h.nodes, ?_⟩
  intro a ha
  rcases mem_putLink ha with rfl | hold
  · exact ⟨source, target⟩
  · exact h.links a hold

theorem Shows.addEdge (h : v.Shows d) (connected : d.Connects e) : (v.addEdge p e).Shows d := by
  obtain ⟨source, target⟩ := connected
  have hforth := h.addLink (l := ⟨e.source, e.target, e.id, e.typeId⟩) source target
  unfold GraphView.addEdge
  split
  next r _ =>
    by_cases hdirected : (r.directionality == .directed) = true
    · simp only [hdirected, if_true]
      exact hforth
    · simp only [hdirected]
      exact hforth.addLink target source
  next => exact hforth

/-- The graph of a valid document with derived edges between its nodes shows that document. -/
theorem shows_ofDocument (hd : d.Valid p) (connected : ∀ e ∈ derived, d.Connects e) :
    (ofDocument p d derived).Shows d := by
  have hstart : GraphView.Shows d
      { nodes := d.nodes.values.foldl (fun t n => t.put n.id (some n.properties)) .empty } := by
    refine ⟨Table.foldl_put_values hd.nodeKeys, ?_⟩
    intro l hl
    exact absurd hl (List.not_mem_nil)
  have hall : ∀ e ∈ d.edges.values ++ derived, d.Connects e := by
    intro e he
    rcases List.mem_append.mp he with hauthored | hderived
    · obtain ⟨r, _, hjoins, _⟩ := hd.edges e hauthored
      exact hjoins.connects
    · exact connected e hderived
  exact List.foldlRecOn _ _ hstart fun v hv e he => hv.addEdge (hall e he)

end Building

section Walks

/-- What is picked among the ends of some links is a node when these ends of all links are. -/
theorem has_of_mem_ends {theEnd : Link → String} {through : Link → Bool} {wanted : String → Bool}
    (ends : ∀ l ∈ v.links, d.nodes.has (theEnd l) = true)
    (h : name ∈ ((v.links.filter through).map theEnd).eraseDups.filter wanted) :
    d.nodes.has name = true := by
  have hmem := List.mem_eraseDups.mp (List.mem_filter.mp h).1
  obtain ⟨l, hl, rfl⟩ := List.mem_map.mp hmem
  exact ends l (List.mem_filter.mp hl).1

/-- A step leads along links, whose ends are nodes of the document. -/
theorem Shows.has_of_mem_step (h : v.Shows d) {s : PathStep} (hname : name ∈ v.step s node) :
    d.nodes.has name = true := by
  have hmem := List.mem_eraseDups.mp hname
  have hout : ∀ {n}, n ∈ (v.startsOf node).flatMap (v.after s.relationship) →
      d.nodes.has n = true := by
    intro n hn
    obtain ⟨start, _, hafter⟩ := List.mem_flatMap.mp hn
    exact has_of_mem_ends (fun l hl => (h.links l hl).2) hafter
  have hin : ∀ {n}, n ∈ (v.startsOf node).flatMap (v.before s.relationship) →
      d.nodes.has n = true := by
    intro n hn
    obtain ⟨start, _, hbefore⟩ := List.mem_flatMap.mp hn
    exact has_of_mem_ends (fun l hl => (h.links l hl).1) hbefore
  cases hdirection : s.direction with
  | outward =>
    simp only [hdirection] at hmem
    exact hout hmem
  | inward =>
    simp only [hdirection] at hmem
    exact hin hmem
  | either =>
    simp only [hdirection] at hmem
    rcases List.mem_append.mp hmem with hafter | hbefore
    · exact hout hafter
    · exact hin hbefore

theorem Shows.has_of_mem_pathEnds (h : v.Shows d) (known : d.nodes.has node = true)
    {steps : List PathStep} (hname : name ∈ v.pathEnds steps node) : d.nodes.has name = true := by
  -- the front holds nodes only: the start is one, and every step leads to nodes
  have hends : ∀ n ∈ steps.foldl
      (fun front s => (front.flatMap (v.step s)).eraseDups) [node], d.nodes.has n = true := by
    refine List.foldlRecOn (motive := fun front => ∀ n ∈ front, d.nodes.has n = true) steps _ ?_ ?_
    · intro n hn
      rwa [List.mem_singleton.mp hn]
    · intro front _ s _ n hn
      obtain ⟨_, _, hstep⟩ := List.mem_flatMap.mp (List.mem_eraseDups.mp hn)
      exact h.has_of_mem_step hstep
  exact hends name (List.mem_filter.mp hname).1

theorem arc_chain {typeId a b : String} : (v.chain typeId).Arc a b ↔
    ∃ l ∈ v.links, l.typeId = typeId ∧ l.source = a ∧ l.target = b := by
  simp [chain, Chain.Arc, and_assoc]

/-- What holds of a node and of the ends of all links holds of all that is reached from that node. -/
theorem of_mem_reach {P : String → Prop} (ends : ∀ l ∈ v.links, P l.source ∧ P l.target)
    (start : P node) {s : PathStep} (h : name ∈ v.reach s node) : P name := by
  have harcs : ∀ a b, (v.chain s.relationship).Arc a b → P a ∧ P b := by
    intro a b harc
    obtain ⟨l, hl, _, rfl, rfl⟩ := arc_chain.mp harc
    exact ends l hl
  have hmem := List.mem_mergeSort.mp h
  unfold reachable at hmem
  generalize s.direction = direction at hmem
  cases direction with
  | outward =>
    exact Chain.of_mem_reached (fun n _ m hm => (harcs n m (Chain.mem_successors.mp hm)).2) start
      (List.mem_filter.mp hmem).1
  | inward =>
    exact Chain.of_mem_reached (fun n _ m hm => (harcs m n (Chain.mem_predecessors.mp hm)).1) start
      (List.mem_filter.mp hmem).1
  | either =>
    refine Chain.of_mem_reached (fun n _ m hm => ?_) start (List.mem_filter.mp hmem).1
    rcases Chain.arc_undirected.mp (Chain.mem_successors.mp hm) with hforth | hback
    · exact (harcs n m hforth).2
    · exact (harcs m n hback).1

theorem Shows.has_of_mem_keys (h : v.Shows d) (hname : name ∈ v.nodes.keys) :
    d.nodes.has name = true :=
  h.has_eq.symm.trans ((Table.has_iff_mem_keys _ _).mpr hname)

theorem reachFirst_of_has (known : v.nodes.has node = true) (s : PathStep) (rest : List PathStep) :
    v.reachFirst (s :: rest) node = .ok (v.reach s node) := if_pos known

theorem Shows.reachFirst_gives (h : v.Shows d) (known : d.nodes.has node = true)
    {steps : List PathStep} (hsteps : steps ≠ []) :
    Gives (v.reachFirst steps node) fun ts => ∀ t ∈ ts, d.nodes.has t = true := by
  cases steps with
  | nil => exact absurd rfl hsteps
  | cons s rest =>
    rw [reachFirst_of_has (h.has_eq.trans known)]
    exact Gives.ok fun t => of_mem_reach (P := (d.nodes.has · = true)) h.links known

theorem Shows.propertiesOf_eq (h : v.Shows d) {n : Node} (found : d.nodes.get? node = some n) :
    v.propertiesOf node = .ok n.properties := by
  rw [propertiesOf, h.nodes, Table.get?_mapValues, found]
  rfl

/-- Properties are known of every node, so each of them can be compared. -/
theorem Shows.matching_gives (h : v.Shows d) (known : d.nodes.has node = true)
    (property : Option String) :
    Gives (v.matching property node) fun ts => ∀ t ∈ ts, d.nodes.has t = true := by
  obtain ⟨n, hn⟩ := Table.has_iff_exists.mp known
  have hnone : Gives (pure [] : Except Fault (List String)) fun ts =>
      ∀ t ∈ ts, d.nodes.has t = true := Gives.ok (by simp)
  unfold matching
  rw [h.propertiesOf_eq hn, ok_bind]
  split
  · exact hnone
  · exact hnone
  · exact hnone
  · refine Gives.bind (Q := fun hits => ∀ e ∈ hits, d.nodes.has e.1 = true)
      (Gives.filterM fun e he => ?_) fun hits hhits => Gives.ok ?_
    · -- an entry of the graph comes from a node, so its properties are known
      have hmem := (List.mem_filter.mp he).1
      rw [h.nodes] at hmem
      obtain ⟨entry, hentry, rfl⟩ := List.mem_map.mp hmem
      refine Gives.ok fun _ => ?_
      exact Table.has_iff_exists.mpr ⟨entry.2, Table.get?_of_mem hentry⟩
    · intro t ht
      obtain ⟨e, he, rfl⟩ := List.mem_map.mp ht
      exact hhits e he

/-- Every derivation of a well-formed preset finds its targets, which are nodes of the document. -/
theorem Shows.targets_gives (h : v.Shows d) (known : d.nodes.has node = true) {rule : Derivation}
    (hrule : rule.WellFormed p) :
    Gives (v.targets rule node) fun ts => ∀ t ∈ ts, d.nodes.has t = true := by
  unfold targets
  cases hkind : rule.kind with
  | neighbors =>
    apply Gives.ok
    intro t ht
    obtain ⟨s, _, hstep⟩ := List.mem_flatMap.mp (List.mem_eraseDups.mp ht)
    exact h.has_of_mem_step hstep
  | path => exact Gives.ok fun t ht => h.has_of_mem_pathEnds known ht
  | transitive => exact h.reachFirst_gives known (hrule.walks (.inr (.inr hkind)))
  | propertyMatch => exact h.matching_gives known _
  | byType => exact Gives.ok fun t ht => h.has_of_mem_keys (List.mem_filter.mp ht).1

end Walks

end GraphView

end GraphWorkbench

import GraphWorkbench.Proofs.Inference.Derivation
/-!
What a pass gathers, as a list of offers: each mapping offers an edge for every target that it finds
for a node, and of the offers between two nodes the last one counts. `Derives` says when a mapping
offers an edge.
-/
namespace GraphWorkbench

open Outcome

/-- The edge that a mapping derives between two nodes. -/
def Mapping.edge (m : Mapping) (relationship source target : String) : DerivedEdge :=
  { id := s!"inferred--{m.id}--{source}--{target}", relationship, source, target
    mapping := m.id, priority := m.priority
    severity := m.rule.severity, confidence := m.rule.confidence }

namespace Inference

variable {p : Preset} {d : Document} {v : GraphView} {n : Node} {m : Mapping}

/-- The mapping derives the edge from what the graph shows: it finds the target for the source, the
types of both are right for the mapping and for the relationship, and no authored edge of the
relationship joins them. -/
structure Derives (p : Preset) (d : Document) (v : GraphView) (m : Mapping) (e : DerivedEdge) :
    Prop where
  mapping : m ∈ p.mappings
  shape : e = m.edge e.relationship e.source e.target
  apart : e.source ≠ e.target
  comes : ComesFrom p d e.toEdge m
  found : ∃ targets, v.targets m.rule e.source = .ok targets ∧ e.target ∈ targets
  joined : ∃ r, p.ruling? e.relationship = some r ∧ p.Joins d.nodes r e.toEdge ∧
    Unclaimed d r e.toEdge

section Offers

/-- Whether a relationship can still join a node of a type to a target. -/
def isOpen (p : Preset) (d : Document) (n : Node) (r : Relationship) (t : NodeType)
    (target : String) : Bool :=
  match (d.nodes.get? target).bind fun other => p.governing? other.typeId with
  | some targetType => r.fits t targetType && !isAuthored d r n.id target
  | none => false

/-- The edge to a target, if there can be one. -/
def offerTo (p : Preset) (d : Document) (n : Node) (m : Mapping) (r : Relationship) (t : NodeType)
    (target : String) : List DerivedEdge :=
  if isOpen p d n r t target then [m.edge r.id n.id target] else []

/-- The edges that a mapping offers for a node. -/
def offers (p : Preset) (d : Document) (v : GraphView) (n : Node) (m : Mapping) :
    List DerivedEdge :=
  match targetsOf d v n m, m.rule.derived.bind p.ruling?, p.governing? n.typeId with
  | .ok targets, some r, some t => targets.flatMap (offerTo p d n m r t)
  | _, _, _ => []

/-- All edges that are offered, node by node and then mapping by mapping. -/
def candidates (p : Preset) (d : Document) (v : GraphView) : List DerivedEdge :=
  d.nodes.values.flatMap fun n => (mappingsFor p n.typeId).flatMap (offers p d v n)

theorem mem_targetsOf {targets : List String} (h : targetsOf d v n m = .ok targets)
    {target : String} :
    target ∈ targets ↔ (∃ found, v.targets m.rule n.id = .ok found ∧ target ∈ found) ∧
      target ≠ n.id ∧ ∃ other, d.nodes.get? target = some other ∧ m.rule.Takes other.typeId := by
  obtain ⟨found, hfound, hpicked⟩ := bind_eq_ok.mp h
  rw [mem_filterM hpicked]
  refine and_congr (by simp [hfound]) ?_
  by_cases hself : target = n.id
  · simp [hself, pure_eq_ok]
  · rw [if_neg (by simpa using hself), bind_eq_ok]
    simp only [typeIdOf_eq_ok, pure_eq_ok, Except.ok.injEq, takesType_iff]
    grind

theorem isOpen_iff {r : Relationship} {t : NodeType} {target : String} :
    isOpen p d n r t target = true ↔
      (∃ other u, d.nodes.get? target = some other ∧ p.governing? other.typeId = some u ∧
        r.Fits t u) ∧ isAuthored d r n.id target = false := by
  unfold isOpen
  cases hother : d.nodes.get? target with
  | none => simp
  | some other =>
    cases hu : p.governing? other.typeId <;> simp [hu, Relationship.fits_iff]

theorem mem_offers {e : DerivedEdge} :
    e ∈ offers p d v n m ↔ ∃ targets r t target, targetsOf d v n m = .ok targets ∧
      m.rule.derived.bind p.ruling? = some r ∧ p.governing? n.typeId = some t ∧
      target ∈ targets ∧ isOpen p d n r t target = true ∧ e = m.edge r.id n.id target := by
  unfold offers
  split
  next targets r t htargets hr ht =>
    simp only [List.mem_flatMap, offerTo, List.mem_ite_nil_right, List.mem_singleton, htargets, hr,
      ht]
    grind
  next hmiss =>
    simp only [List.not_mem_nil, false_iff]
    rintro ⟨targets, r, t, _, htargets, hr, ht, _⟩
    exact hmiss targets r t htargets hr ht

theorem derives_of_mem_offers (hd : d.Valid p) (hn : n ∈ d.nodes.values)
    (hm : m ∈ mappingsFor p n.typeId) {e : DerivedEdge} (he : e ∈ offers p d v n m) :
    Derives p d v m e := by
  obtain ⟨targets, r, t, target, htargets, hr, ht, htarget, hopen, rfl⟩ := mem_offers.mp he
  obtain ⟨name, hname, hruling⟩ := Option.bind_eq_some_iff.mp hr
  obtain rfl : r.id = name := Preset.id_of_ruling? hruling
  obtain ⟨hmapping, happlies⟩ := (mem_mappingsFor ht).mp hm
  obtain ⟨hfound, hapart, hother⟩ := (mem_targetsOf htargets).mp htarget
  obtain ⟨⟨other, u, hget, hu, hfits⟩, hauthored⟩ := isOpen_iff.mp hopen
  have hnode := hd.get?_node hn
  exact
    { mapping := hmapping
      shape := rfl
      apart := hapart.symm
      comes := ⟨rfl, hname, ⟨n, t, hnode, ht, happlies⟩, hother⟩
      found := hfound
      joined := ⟨r, hruling, ⟨n, other, t, u, hnode, hget, ht, hu, hfits⟩,
        isAuthored_eq_false_iff.mp hauthored⟩ }

theorem Derives.mem_offers (hp : p.WellFormed) (hd : d.Valid p) (hv : v.Shows d) {e : DerivedEdge}
    (h : Derives p d v m e) :
    ∃ n ∈ d.nodes.values, m ∈ mappingsFor p n.typeId ∧ e ∈ offers p d v n m := by
  obtain ⟨n, t, hnode, ht, happlies⟩ := h.comes.source
  have hid : n.id = e.source := hd.nodeKeys _ (Entries.mem_of_get? hnode)
  have hm : m ∈ mappingsFor p n.typeId := (mem_mappingsFor ht).mpr ⟨h.mapping, happlies⟩
  have hknown : d.nodes.has n.id = true := Table.has_iff_exists.mpr ⟨n, hid ▸ hnode⟩
  obtain ⟨targets, htargets, _⟩ := targetsOf_gives hv hknown (hp.mappings m h.mapping)
  obtain ⟨r, hruling, ⟨source, other, t', u, hsource, hget, ht', hu, hfits⟩, hunclaimed⟩ := h.joined
  -- the source that the relationship joins is the node that the mapping is for
  obtain rfl : n = source := Option.some.inj (hnode.symm.trans hsource)
  obtain rfl : t = t' := Option.some.inj (ht.symm.trans ht')
  have hrid : r.id = e.relationship := Preset.id_of_ruling? hruling
  refine ⟨n, Table.mem_values_of_get? hnode, hm, Inference.mem_offers.mpr ?_⟩
  refine ⟨targets, r, t, e.target, htargets, ?_, ht, ?_, ?_, ?_⟩
  · exact Option.bind_eq_some_iff.mpr ⟨e.relationship, h.comes.derives, hruling⟩
  · exact (mem_targetsOf htargets).mpr ⟨hid ▸ h.found, hid ▸ h.apart.symm, h.comes.target⟩
  · exact isOpen_iff.mpr ⟨⟨other, u, hget, hu, hfits⟩, hid ▸ isAuthored_eq_false_iff.mpr hunclaimed⟩
  · rw [hrid, hid]
    exact h.shape

/-- The edges that are offered are those that some mapping derives. -/
theorem mem_candidates (hp : p.WellFormed) (hd : d.Valid p) (hv : v.Shows d) {e : DerivedEdge} :
    e ∈ candidates p d v ↔ ∃ m, Derives p d v m e := by
  unfold candidates
  simp only [List.mem_flatMap]
  constructor
  · rintro ⟨n, hn, m, hm, he⟩
    exact ⟨m, derives_of_mem_offers hd hn hm he⟩
  · rintro ⟨m, hderives⟩
    obtain ⟨n, hn, hm, he⟩ := hderives.mem_offers hp hd hv
    exact ⟨n, hn, m, hm, he⟩

end Offers

section Gathering

/-- An edge put last, in place of one that joins the same nodes. -/
def putLast (edges : List DerivedEdge) (e : DerivedEdge) : List DerivedEdge :=
  edges.filter (fun o => !(o.source == e.source && o.target == e.target)) ++ [e]

theorem mem_of_mem_foldl_putLast {edges given : List DerivedEdge} {e : DerivedEdge}
    (h : e ∈ given.foldl putLast edges) : e ∈ edges ∨ e ∈ given := by
  induction given generalizing edges with
  | nil => exact .inl h
  | cons a rest ih =>
    rcases ih h with hput | hrest
    · rcases List.mem_append.mp hput with hold | hnew
      · exact .inl (List.mem_filter.mp hold).1
      · exact .inr (List.mem_singleton.mp hnew ▸ List.mem_cons_self)
    · exact .inr (List.mem_cons_of_mem _ hrest)

/-- Nodes that were joined stay joined, by the same edge or by a later one. -/
theorem exists_joining_of_mem {edges given : List DerivedEdge} {e : DerivedEdge}
    (h : e ∈ edges ∨ e ∈ given) :
    ∃ f ∈ given.foldl putLast edges, f.source = e.source ∧ f.target = e.target := by
  induction given generalizing edges e with
  | nil => exact ⟨e, h.resolve_right List.not_mem_nil, rfl, rfl⟩
  | cons a rest ih =>
    have hlast : a ∈ putLast edges a := List.mem_append_right _ (List.mem_singleton_self a)
    rcases h with hold | hgiven
    · by_cases hsame : e.source = a.source ∧ e.target = a.target
      · obtain ⟨f, hf, hsource, htarget⟩ := ih (.inl hlast)
        exact ⟨f, hf, hsource.trans hsame.1.symm, htarget.trans hsame.2.symm⟩
      · have hkept : e ∈ putLast edges a := by
          apply List.mem_append_left
          refine List.mem_filter.mpr ⟨hold, ?_⟩
          rwa [Bool.not_eq_true', ← Bool.not_eq_true, Bool.and_eq_true, beq_iff_eq, beq_iff_eq]
        exact ih (.inl hkept)
    · rcases List.mem_cons.mp hgiven with rfl | hrest
      · exact ih (.inl hlast)
      · exact ih (.inr hrest)

/-- Steps that each put some edges last put all of these edges last, in turn. -/
theorem edges_of_foldlM {α : Type} {step : Harvest → α → Except Fault Harvest}
    {given : α → List DerivedEdge}
    (gives : ∀ h x h', step h x = .ok h' → h'.edges = (given x).foldl putLast h.edges)
    {xs : List α} {h h' : Harvest} (run : xs.foldlM step h = .ok h') :
    h'.edges = (xs.flatMap given).foldl putLast h.edges := by
  induction xs generalizing h with
  | nil => exact Except.ok.inj run ▸ rfl
  | cons x rest ih =>
    rw [List.foldlM_cons] at run
    obtain ⟨mid, hx, hrest⟩ := bind_eq_ok.mp run
    rw [ih hrest, gives h x mid hx, List.flatMap_cons, List.foldl_append]

theorem edges_of_deriveEdge {r : Relationship} {t : NodeType} {target : String} {h h' : Harvest}
    (run : deriveEdge p d n m r t h target = .ok h') :
    h'.edges = (offerTo p d n m r t target).foldl putLast h.edges := by
  obtain ⟨typeId, htype, hgoverned⟩ := bind_eq_ok.mp run
  obtain ⟨u, hu, hput⟩ := bind_eq_ok.mp hgoverned
  obtain ⟨other, hother, rfl⟩ := typeIdOf_eq_ok.mp htype
  have hopen : (!r.fits t u || isAuthored d r n.id target) = !isOpen p d n r t target := by
    simp [isOpen, hother, known_eq_ok.mp hu]
  rw [hopen] at hput
  unfold offerTo
  cases hcase : isOpen p d n r t target with
  | false =>
    simp only [hcase, Bool.not_false, if_true] at hput
    rw [← Except.ok.inj hput]
    rfl
  | true =>
    simp only [hcase, Bool.not_true, Bool.false_eq_true, if_false] at hput
    rw [← Except.ok.inj hput]
    rfl

theorem edges_of_applyMapping {h h' : Harvest} (run : applyMapping p d v n h m = .ok h') :
    h'.edges = (offers p d v n m).foldl putLast h.edges := by
  obtain ⟨targets, htargets, hrest⟩ := bind_eq_ok.mp run
  unfold offers
  rw [htargets]
  by_cases hempty : targets.isEmpty = true
  · rw [if_pos hempty] at hrest
    rw [← Except.ok.inj hrest, List.isEmpty_iff.mp hempty]
    split <;> simp_all
  · rw [if_neg hempty] at hrest
    cases hderived : m.rule.derived with
    | none =>
      simp only [hderived] at hrest
      rw [← Except.ok.inj hrest, edges_describe]
      rfl
    | some name =>
      simp only [hderived] at hrest
      obtain ⟨r, hr, hgoverned⟩ := bind_eq_ok.mp hrest
      obtain ⟨t, ht, hfold⟩ := bind_eq_ok.mp hgoverned
      rw [Option.bind_some, known_eq_ok.mp hr, known_eq_ok.mp ht]
      have hedges := edges_of_foldlM (fun _ _ _ hstep => edges_of_deriveEdge hstep) hfold
      rwa [edges_describe] at hedges

/-- The edges that a pass gathers are all that are offered, put last one after another. -/
theorem edges_of_harvest {h : Harvest} (run : harvest p d v = .ok h) :
    h.edges = (candidates p d v).foldl putLast [] := by
  unfold harvest at run
  refine edges_of_foldlM (fun h n h' hrun => ?_) run
  exact edges_of_foldlM (fun h m h' hrun => edges_of_applyMapping hrun) hrun

end Gathering

end Inference

end GraphWorkbench

import GraphWorkbench.Proofs.Inference.Ways
import GraphWorkbench.Proofs.Matching
/-!
Documents that hold the same nodes and edges in another order. An edge that can be followed both ways
may also have been turned round. Such documents open the same ways, have the same edges authored and
leave the same room for others.
-/
namespace GraphWorkbench

/-- The same node, wherever it is drawn and in whatever order its properties are. -/
structure Node.Like (n n' : Node) : Prop where
  id : n'.id = n.id
  typeId : n'.typeId = n.typeId
  properties : ∀ key, n'.properties.get? key = n.properties.get? key

/-- The same edge, or one turned round that can be followed both ways. -/
structure Edge.Like (p : Preset) (e e' : Edge) : Prop where
  id : e'.id = e.id
  typeId : e'.typeId = e.typeId
  ends : (e'.source = e.source ∧ e'.target = e.target) ∨
    (p.BothWays e.typeId ∧ e'.source = e.target ∧ e'.target = e.source)

/-- The edge the other way round. -/
def Edge.turned (e : Edge) : Edge := { e with source := e.target, target := e.source }

/-- Two documents hold the same nodes and edges in whatever order, but for edges turned round. -/
structure Document.Rearranged (p : Preset) (d d' : Document) : Prop where
  nodes : d.nodes.Matches Node.Like d'.nodes
  edges : d.edges.Matches (Edge.Like p) d'.edges

variable {p : Preset} {d d' : Document}

section Like

variable {n n' : Node} {e e' : Edge}

theorem Node.Like.refl (n : Node) : n.Like n := ⟨rfl, rfl, fun _ => rfl⟩

theorem Node.Like.symm (h : n.Like n') : n'.Like n :=
  ⟨h.id.symm, h.typeId.symm, fun key => (h.properties key).symm⟩

theorem Edge.Like.refl (p : Preset) (e : Edge) : Edge.Like p e e := ⟨rfl, rfl, .inl ⟨rfl, rfl⟩⟩

theorem Edge.Like.turned (both : p.BothWays e.typeId) : Edge.Like p e e.turned :=
  ⟨rfl, rfl, .inr ⟨both, rfl, rfl⟩⟩

theorem Edge.Like.symm (h : Edge.Like p e e') : Edge.Like p e' e := by
  refine ⟨h.id.symm, h.typeId.symm, ?_⟩
  obtain ⟨hsource, htarget⟩ | ⟨hboth, hsource, htarget⟩ := h.ends
  · exact .inl ⟨hsource.symm, htarget.symm⟩
  · exact .inr ⟨h.typeId ▸ hboth, htarget.symm, hsource.symm⟩

/-- An edge opens the same ways whichever way round it is. -/
theorem Edge.Like.opens (h : Edge.Like p e e') {typeId source target : String}
    (opens : GraphView.Opens p typeId source target e) :
    GraphView.Opens p typeId source target e' := by
  obtain ⟨rfl, hways⟩ := opens
  refine ⟨h.typeId, ?_⟩
  obtain ⟨hsource, htarget⟩ | ⟨hboth, hsource, htarget⟩ := h.ends
  · rw [hsource, htarget]
    exact hways
  · rw [hsource, htarget]
    obtain ⟨rfl, rfl⟩ | ⟨_, rfl, rfl⟩ := hways
    · exact .inr ⟨hboth, rfl, rfl⟩
    · exact .inl ⟨rfl, rfl⟩

end Like

namespace Document.Rearranged

theorem symm (h : d.Rearranged p d') : d'.Rearranged p d :=
  ⟨h.nodes.flip fun _ _ => Node.Like.symm, h.edges.flip fun _ _ => Edge.Like.symm⟩

theorem plainIds (h : d.Rearranged p d') (plain : d.PlainIds) : d'.PlainIds where
  nodes key hkey := plain.nodes key (h.nodes.mem_keys.mp hkey)
  edges key hkey := plain.edges key (h.edges.mem_keys.mp hkey)
  ways key hkey := plain.ways key (h.edges.mem_keys.mp hkey)

theorem opens (h : d.Rearranged p d') {typeId source target : String} :
    (∃ e ∈ d'.edges.values, GraphView.Opens p typeId source target e) ↔
      ∃ e ∈ d.edges.values, GraphView.Opens p typeId source target e := by
  have himp : ∀ {d d' : Document}, d.Rearranged p d' →
      (∃ e ∈ d.edges.values, GraphView.Opens p typeId source target e) →
      ∃ e ∈ d'.edges.values, GraphView.Opens p typeId source target e := by
    rintro d d' h ⟨e, he, hopens⟩
    obtain ⟨e', he', hlike⟩ := h.edges.exists_of_mem_values he
    exact ⟨e', he', hlike.opens hopens⟩
  exact ⟨himp h.symm, himp h⟩

end Document.Rearranged

namespace Inference

variable {edges : List DerivedEdge}

section Authored

variable {r : Relationship} {source target : String}

theorem isAuthored_iff (ruled : p.ruling? r.id = some r) : isAuthored d r source target = true ↔
    ∃ e ∈ d.edges.values, GraphView.Opens p r.id source target e := by
  have hboth : p.BothWays r.id ↔ r.directionality ≠ .directed := by
    simp [Preset.BothWays, ruled]
  unfold isAuthored GraphView.Opens
  simp [hboth, and_assoc]

theorem isAuthored_eq (same : d.Rearranged p d') (ruled : p.ruling? r.id = some r) :
    isAuthored d' r source target = isAuthored d r source target := by
  rw [Bool.eq_iff_iff, isAuthored_iff ruled, isAuthored_iff ruled, same.opens]

end Authored

section Graph

/-- Rearranged documents have graphs that differ in order only. -/
theorem alike_graphOf (hd : d.Valid p) (hd' : d'.Valid p) (same : d.Rearranged p d')
    (plain : d.PlainIds) (built : Built p d edges) (built' : Built p d' edges) :
    (graphOf p d edges).Alike (graphOf p d' edges) := by
  constructor
  · intro node
    have hlookup : ∀ {d : Document}, (graphOf p d edges).Shows d →
        (graphOf p d edges).lookup node =
          (d.nodes.get? node).map fun n => some n.properties.get? := by
      intro d hshows
      rw [GraphView.lookup, hshows.nodes, Table.get?_mapValues, Option.map_map]
      rfl
    rw [hlookup (built.shows hd), hlookup (built'.shows hd')]
    cases hn : d.nodes.get? node with
    | none => rw [same.nodes.get?_eq_none hn, Option.map_none]
    | some n =>
      obtain ⟨n', hn', hlike⟩ := same.nodes.exists_of_get? hn
      rw [hn', Option.map_some, Option.map_some, funext hlike.properties]
  · intro typeId source target
    rw [GraphView.linked_ofDocument (built.unmistaken hd plain),
      GraphView.linked_ofDocument (built'.unmistaken hd' (same.plainIds plain))]
    simp only [List.mem_append, or_and_right, exists_or, same.opens]

end Graph

section Room

variable {kept kept' kept'' : Table DerivedEdge} {candidates : List DerivedEdge} {e : DerivedEdge}

/-- An edge is borne alike by an edge and the same one turned round. -/
theorem bears_of_like {o o' f : Edge} (like : Edge.Like p o o') (bears : p.Bears o f) :
    p.Bears o' f := by
  intro htype r hr
  have hother : f.typeId = o.typeId := htype.trans like.typeId
  have hclash := bears hother r hr
  obtain ⟨hsource, htarget⟩ | ⟨⟨r', hr', hundirected⟩, hsource, htarget⟩ := like.ends
  · have hsame : r.clashes f o' = r.clashes f o := by
      simp only [Relationship.clashes, Edge.touches, hsource, htarget]
    exact hsame.trans hclash
  · obtain rfl : r = r' := Option.some.inj (hr.symm.trans (hother ▸ hr'))
    have hsame : r.clashes f o' = r.clashes f o := by
      unfold Relationship.clashes Edge.touches
      rw [hsource, htarget]
      cases r.multiplicity <;> cases hdirection : r.directionality <;>
        simp_all [Bool.or_comm]
    exact hsame.trans hclash

theorem rivals_matches (same : d.Rearranged p d') (kept : Table DerivedEdge) :
    (rivals d kept).Matches (Edge.Like p) (rivals d' kept) := by
  have hget : ∀ (d : Document) key, (rivals d kept).get? key =
      ((kept.get? key).map DerivedEdge.toEdge).or (d.edges.get? key) := by
    intro d key
    rw [rivals, Table.get?_merge, Table.get?_mapValues]
  constructor
  · intro key
    have hhas : ∀ d : Document, (rivals d kept).has key = (kept.has key || d.edges.has key) := by
      intro d
      have hsome := congrArg Option.isSome (hget d key)
      rw [Option.isSome_or, Option.isSome_map] at hsome
      exact hsome
    rw [hhas, hhas, same.edges.keys]
  · intro key o o' ho ho'
    rw [hget] at ho ho'
    cases hkept : kept.get? key with
    | none =>
      rw [hkept] at ho ho'
      exact same.edges.values key o o' ho ho'
    | some e =>
      -- both documents show the edge that is kept under the key
      rw [hkept] at ho ho'
      obtain rfl := Option.some.inj (ho.symm.trans ho')
      exact .refl p o

theorem hasRoom_of_rearranged (same : d.Rearranged p d') (room : HasRoom p d kept e) :
    HasRoom p d' kept e := by
  intro o' ho' hid
  obtain ⟨o, ho, hlike⟩ := (rivals_matches same.symm kept).exists_of_mem_values ho'
  exact bears_of_like hlike.symm (room o ho (hlike.id.trans_ne hid))

/-- Rearranged documents leave room for the same candidates. -/
theorem Keeps.unique (same : d.Rearranged p d') (h : Keeps p d kept candidates kept')
    (h' : Keeps p d' kept candidates kept'') : kept'' = kept' := by
  induction h with
  | done =>
    cases h'
    rfl
  | keep room _ ih =>
    cases h' with
    | keep _ others => exact ih others
    | drop full _ => exact absurd (hasRoom_of_rearranged same room) full
  | drop full _ ih =>
    cases h' with
    | keep room _ => exact absurd (hasRoom_of_rearranged same.symm room) full
    | drop _ others => exact ih others

end Room

end Inference

end GraphWorkbench

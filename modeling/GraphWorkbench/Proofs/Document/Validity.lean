import GraphWorkbench.Document.Exchange
import GraphWorkbench.Proofs.Document.Acceptance
import GraphWorkbench.Proofs.Document.Staging
/-!
Valid documents of a preset. `Valid` is what a reader may rely on. What mutations keep is a little
more: `Sound` also says that every edge could be added after the ones before it, which for some
relationships depends on the order of the edges.
-/
namespace GraphWorkbench

open Outcome

namespace Document

/-- All that a valid document of a preset promises of its elements one by one. -/
structure Conforms (p : Preset) (d : Document) : Prop where
  preset : d.metadata.presetId = p.id
  nodeKeys : ∀ entry ∈ d.nodes.entries, entry.2.id = entry.1
  edgeKeys : ∀ entry ∈ d.edges.entries, entry.2.id = entry.1
  nodes : ∀ n ∈ d.nodes.values, p.AdmitsNode n
  authored : ∀ e ∈ d.edges.values, e.inferred = false
  edges : ∀ e ∈ d.edges.values, p.AdmitsEdge d.nodes e
  nodeRoom : d.nodes.size ≤ p.behavior.maxNodes
  edgeRoom : d.edges.size ≤ p.behavior.maxEdges

/-- A valid document of a preset: no two edges are more than their relationship admits. -/
structure Valid (p : Preset) (d : Document) : Prop extends Conforms p d where
  multiplicity : d.edges.values.Pairwise p.Permits

/-- A document that could be put together by adding its elements in their order. -/
structure Sound (p : Preset) (d : Document) : Prop extends Conforms p d where
  version : d.metadata.presetVersion = p.version
  titled : d.metadata.title ≠ ""
  ordered : d.edges.values.Pairwise p.Bears

variable {p : Preset} {d d' : Document}

theorem Conforms.get?_node (h : d.Conforms p) {n : Node} (hn : n ∈ d.nodes.values) :
    d.nodes.get? n.id = some n := by
  obtain ⟨key, hentry⟩ := Table.mem_values.mp hn
  have hkey : n.id = key := h.nodeKeys _ hentry
  rw [hkey]
  exact Table.get?_of_mem hentry

theorem Sound.valid (h : d.Sound p) : d.Valid p :=
  ⟨h.toConforms, h.ordered.imp Preset.Bears.permits⟩

theorem sound_blank {title : String} (titled : title ≠ "") : (blank p title).Sound p where
  preset := rfl
  nodeKeys _ h := nomatch h
  edgeKeys _ h := nomatch h
  nodes _ h := nomatch h
  authored _ h := nomatch h
  edges _ h := nomatch h
  nodeRoom := Nat.zero_le _
  edgeRoom := Nat.zero_le _
  version := rfl
  titled := titled
  ordered := .nil

end Document

namespace Document.Sound

variable {p : Preset} {d : Document} {n : Node} {e : Edge} {id : String}

/-- The node under a key, if there is one, goes by that key. -/
theorem node_id (h : d.Sound p) (found : d.nodes.get? id = some n) : n.id = id :=
  h.nodeKeys _ (Entries.mem_of_get? found)

theorem edge_id (h : d.Sound p) (found : d.edges.get? id = some e) : e.id = id :=
  h.edgeKeys _ (Entries.mem_of_get? found)

/-- Writing an admitted node under its id, where a node that is there already keeps its type. -/
theorem putNode (h : d.Sound p) (admitted : p.AdmitsNode n)
    (kept : ∀ old, d.nodes.get? n.id = some old → n.typeId = old.typeId)
    (room : (d.nodes.put n.id n).size ≤ p.behavior.maxNodes) :
    Sound p { d with nodes := d.nodes.put n.id n } := by
  refine { h with nodeKeys := ?_, nodes := ?_, edges := ?_, nodeRoom := room }
  · intro entry hentry
    rcases Entries.mem_put hentry with rfl | hold
    · rfl
    · exact h.nodeKeys entry hold
  · intro m hm
    rcases Table.mem_values_put hm with rfl | hold
    · exact admitted
    · exact h.nodes m hold
  · intro e he
    refine (h.edges e he).congr ?_
    intro key old _ hold
    change ∃ n', (d.nodes.put n.id n).get? key = some n' ∧ n'.typeId = old.typeId
    rw [Table.get?_put]
    by_cases hk : key = n.id
    · exact ⟨n, if_pos hk, kept old (hk ▸ hold)⟩
    · exact ⟨old, (if_neg hk).trans hold, rfl⟩

/-- Removing a node with the edges at it. -/
theorem removeNode (h : d.Sound p) (id : String) :
    Sound p { d with nodes := d.nodes.erase id, edges := d.edges.without (·.touches id) } := by
  have hnodes := d.nodes.entries_erase_sublist id
  have hedges := d.edges.entries_without_sublist (·.touches id)
  have hvalues : ∀ e ∈ (d.edges.without (·.touches id)).values, e ∈ d.edges.values :=
    fun e he => (Table.mem_values_without.mp he).1
  refine { h with nodeKeys := ?_, edgeKeys := ?_, nodes := ?_, authored := ?_, edges := ?_,
                  nodeRoom := ?_, edgeRoom := ?_, ordered := ?_ }
  · exact fun entry hentry => h.nodeKeys entry (hnodes.subset hentry)
  · exact fun entry hentry => h.edgeKeys entry (hedges.subset hentry)
  · exact fun n hn => h.nodes n ((hnodes.map Prod.snd).subset hn)
  · exact fun e he => h.authored e (hvalues e he)
  · intro e he
    obtain ⟨hmem, haway⟩ := Table.mem_values_without.mp he
    refine (h.edges e hmem).congr ?_
    -- the node that goes is at neither end of an edge that stays
    have hends : e.source ≠ id ∧ e.target ≠ id := by simpa [Edge.touches] using haway
    intro key n hkey hn
    have hne : key ≠ id := by
      rcases hkey with rfl | rfl
      · exact hends.1
      · exact hends.2
    exact ⟨n, (Table.get?_erase_of_ne hne).trans hn, rfl⟩
  · exact Nat.le_trans hnodes.length_le h.nodeRoom
  · exact Nat.le_trans hedges.length_le h.edgeRoom
  · exact h.ordered.sublist (hedges.map Prod.snd)

/-- Writing an admitted edge under its id. -/
theorem putEdge (h : d.Sound p) (authored : e.inferred = false)
    (admitted : p.AdmitsEdge d.nodes e) (room : (d.edges.put e.id e).size ≤ p.behavior.maxEdges)
    (ordered : (d.edges.put e.id e).values.Pairwise p.Bears) :
    Sound p { d with edges := d.edges.put e.id e } := by
  refine { h with edgeKeys := ?_, authored := ?_, edges := ?_, edgeRoom := room,
                  ordered := ordered }
  · intro entry hentry
    rcases Entries.mem_put hentry with rfl | hold
    · rfl
    · exact h.edgeKeys entry hold
  · intro o ho
    rcases Table.mem_values_put ho with rfl | hold
    · exact authored
    · exact h.authored o hold
  · intro o ho
    rcases Table.mem_values_put ho with rfl | hold
    · exact admitted
    · exact h.edges o hold

theorem removeEdge (h : d.Sound p) (id : String) :
    Sound p { d with edges := d.edges.erase id } := by
  have hedges := d.edges.entries_erase_sublist id
  have hvalues := (hedges.map Prod.snd).subset
  refine { h with edgeKeys := ?_, authored := ?_, edges := ?_, edgeRoom := ?_, ordered := ?_ }
  · exact fun entry hentry => h.edgeKeys entry (hedges.subset hentry)
  · exact fun e he => h.authored e (hvalues he)
  · exact fun e he => h.edges e (hvalues he)
  · exact Nat.le_trans hedges.length_le h.edgeRoom
  · exact h.ordered.sublist (hedges.map Prod.snd)

/-- The ids of edges are the keys, so an edge whose key is free has a new id. -/
theorem fresh_id (h : d.Sound p) (fresh : d.edges.has id = false) :
    ∀ o ∈ d.edges.values, o.id ≠ id := by
  intro o ho hid
  obtain ⟨key, hmem⟩ := Table.mem_values.mp ho
  have hkey : key = id := (h.edgeKeys _ hmem).symm.trans hid
  exact Table.has_eq_false_iff.mp fresh (hkey ▸ List.mem_map_of_mem hmem)

end Document.Sound

/-- An edge that takes the place of one of the same relationship with the same ends clashes with no
more edges than that one. -/
theorem Table.pairwise_bears_put {p : Preset} {edges : Table Edge} {old e : Edge} {key : String}
    (found : edges.get? key = some old) (type : e.typeId = old.typeId)
    (source : e.source = old.source) (target : e.target = old.target)
    (ordered : edges.values.Pairwise p.Bears) : (edges.put key e).values.Pairwise p.Bears := by
  obtain ⟨before, after, he⟩ := exists_at found
  have hshape : ∀ o, (p.Bears o e ↔ p.Bears o old) ∧ (p.Bears e o ↔ p.Bears old o) := by
    intro o
    simp only [Preset.Bears, Relationship.clashes, Edge.touches, type, source, target, and_self]
  rw [values, he] at ordered
  rw [values, entries_put_at he]
  simp only [List.map_append, List.map_cons, List.pairwise_append, List.pairwise_cons,
    List.forall_mem_cons, hshape] at ordered ⊢
  exact ordered

namespace Effect

variable {p : Preset} {d d' : Document} {m : Mutation}

/-- Every accepted mutation keeps a document sound. -/
theorem sound (h : Effect p d m d') (hd : d.Sound p) : d'.Sound p := by
  cases h with
  | addNode fresh room checked =>
    refine hd.putNode (Preset.checkNode_eq_ok_iff.mp checked) ?_ ?_
    · intro old hold
      have hhas := Table.has_iff_exists.mpr ⟨old, hold⟩
      simp [fresh] at hhas
    · rw [Table.size_put_new fresh]
      exact room
  | keepNode => exact hd
  | @updateNode id changes removed position n found differs checked present =>
    have hid : n.id = id := hd.node_id found
    refine hd.putNode (n := n.revised changes removed position)
      (Preset.checkNode_eq_ok_iff.mp checked) ?_ ?_
    · intro old hold
      have hsame : some old = some n := hold.symm.trans (hid ▸ found)
      rw [Option.some.inj hsame]
      rfl
    · exact Nat.le_trans (Nat.le_of_eq (Table.size_put_of_has present)) hd.nodeRoom
  | removeNode => exact hd.removeNode _
  | @addEdge e authored fresh room checked =>
    obtain ⟨admitted, bears⟩ :=
      (Preset.checkEdge_eq_ok_iff (hd.fresh_id fresh) hd.authored).mp checked
    refine hd.putEdge authored admitted ?_ ?_
    · rw [Table.size_put_new fresh]
      exact room
    -- the new edge comes last, where it was checked against all others
    · rw [Table.values_put_new fresh, List.pairwise_append]
      refine ⟨hd.ordered, List.pairwise_singleton _ _, ?_⟩
      intro o ho later hlater
      rw [List.mem_singleton.mp hlater]
      exact bears o ho
  | keepEdge => exact hd
  | @updateEdge id changes removed e r found differs ruled checked present =>
    have hid : e.id = id := hd.edge_id found
    have hmem : e ∈ d.edges.values := Table.mem_values_of_get? found
    obtain ⟨r', hruled, hjoins, _⟩ := hd.edges e hmem
    have haccepts := (checkProperties_eq_ok_iff.mp checked).1
    refine hd.putEdge (e := e.revised changes removed) (hd.authored e hmem) ?_ ?_ ?_
    · obtain rfl : r = r' := Option.some.inj (ruled.symm.trans hruled)
      exact ⟨r, ruled, hjoins, haccepts⟩
    · exact Nat.le_trans (Nat.le_of_eq (Table.size_put_of_has present)) hd.edgeRoom
    · have hfound : d.edges.get? e.id = some e := hid ▸ found
      exact Table.pairwise_bears_put hfound rfl rfl rfl hd.ordered
  | removeEdge => exact hd.removeEdge _

end Effect

end GraphWorkbench

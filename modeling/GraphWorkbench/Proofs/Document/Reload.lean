import GraphWorkbench.Proofs.Document.Loading
/-!
A sound document whose numbers are finite is loaded back from its export as it is. Its elements are
read back one by one, and each one is accepted after those before it.
-/
namespace GraphWorkbench

open Schema Outcome

def Position.Finite (q : Position) : Prop := q.x.isFinite = true ∧ q.y.isFinite = true

def Node.Finite (n : Node) : Prop := (Json.ofTable n.properties).Finite ∧ n.position.Finite

def Edge.Finite (e : Edge) : Prop := (Json.ofTable e.properties).Finite

/-- All numbers in a document are finite. -/
structure Document.Finite (d : Document) : Prop where
  nodes : ∀ n ∈ d.nodes.values, n.Finite
  edges : ∀ e ∈ d.edges.values, e.Finite

instance : DecidablePred Node.Finite := fun n =>
  inferInstanceAs (Decidable ((Json.ofTable n.properties).Finite ∧
    n.position.x.isFinite = true ∧ n.position.y.isFinite = true))

instance : DecidablePred Edge.Finite := fun e =>
  inferInstanceAs (Decidable (Json.ofTable e.properties).Finite)

instance : DecidablePred Document.Finite := fun d =>
  decidable_of_iff ((∀ n ∈ d.nodes.values, n.Finite) ∧ ∀ e ∈ d.edges.values, e.Finite)
    ⟨fun h => ⟨h.1, h.2⟩, fun h => ⟨h.nodes, h.edges⟩⟩

/-! Elements are read back from what is written of them. -/

theorem Position.decode_toJson (q : Position) : Position.decode q.toJson = .ok q := rfl

theorem Schema.anyTable_ofTable (t : Table Json) : anyTable (Json.ofTable t) = .ok t :=
  congrArg Except.ok t.ofEntries_entries

theorem Schema.anyTable_portable {t : Table Json} (h : (Json.ofTable t).Finite) :
    anyTable (Json.ofTable t).portable = .ok t := by
  rw [Json.portable_of_finite h]
  exact anyTable_ofTable t

theorem Node.decode_write {n : Node} (h : n.Finite) (naming : Naming) :
    Node.decode (n.write naming) = .ok n := by
  have hproperties := anyTable_portable h.1
  cases naming <;>
    simp [decode, write, Naming.pick, record, required, Schema.optional, lookup, Entries.get?,
      string, hproperties, Position.decode_toJson]

theorem Edge.decode_write {e : Edge} (h : e.Finite) (naming : Naming) :
    Edge.decode (e.write naming) = .ok e := by
  have hproperties := anyTable_portable h
  cases naming <;>
    simp [decode, write, Naming.pick, record, required, Schema.optional, lookup, Entries.get?,
      string, boolean, hproperties]

theorem Node.toJson_finite {n : Node} (h : n.position.Finite) : n.toJson.Finite := by
  have hproperties : (Json.ofTable n.properties).portable.Finite := Json.finite_portable _
  exact ⟨trivial, trivial, hproperties, ⟨h.1, h.2, trivial⟩, trivial⟩

theorem Edge.toJson_finite (e : Edge) : e.toJson.Finite := by
  have hproperties : (Json.ofTable e.properties).portable.Finite := Json.finite_portable _
  exact ⟨trivial, trivial, trivial, trivial, hproperties, trivial, trivial⟩

theorem Document.exportFields_finite {d : Document} (h : d.Finite) :
    Json.FiniteFields d.exportFields := by
  have hnodes : Json.FiniteItems (d.nodes.values.map Node.toJson) :=
    Json.finiteItems_map fun n hn => Node.toJson_finite (h.nodes n hn).2
  have hedges : Json.FiniteItems ((d.edges.values.filter fun e => !e.inferred).map Edge.toJson) :=
    Json.finiteItems_map fun e _ => Edge.toJson_finite e
  exact ⟨⟨trivial, trivial, trivial, trivial⟩, hnodes, hedges, trivial⟩

namespace Draft

variable {p : Preset} {d : Draft} {n : Node} {e : Edge}

/-! Adding the elements of a table one by one, in their order. -/

theorem stage_addNode (fresh : d.working.nodes.has n.id = false)
    (room : d.working.nodes.size < p.behavior.maxNodes) (admitted : p.AdmitsNode n) :
    stage p d (.addNode n) = (d.push (.node (.insert n.id d.working.nodes.size n))
      { d.working with nodes := d.working.nodes.put n.id n }, none) := by
  have hroom : p.checkNodeRoom d.working.nodes.size n.id = .ok () :=
    Preset.checkNodeRoom_eq_ok.mpr room
  have hchecked : p.checkNode n = .ok () := Preset.checkNode_eq_ok_iff.mpr admitted
  rw [stage_of_single rfl, perform, addNode]
  simp only [fresh, Bool.false_eq_true, if_false, hroom, ok_bind, hchecked, insertNode_eq fresh,
    ofFault_ok]
  rfl

theorem stage_addEdge (authored : e.inferred = false) (fresh : d.working.edges.has e.id = false)
    (room : d.working.edges.size < p.behavior.maxEdges)
    (checked : p.checkEdge d.working.nodes d.working.edges e = .ok ()) :
    stage p d (.addEdge e) = (d.push (.edge (.insert e.id d.working.edges.size e))
      { d.working with edges := d.working.edges.put e.id e }, none) := by
  have hroom : p.checkEdgeRoom d.working.edges.size e.id = .ok () :=
    Preset.checkEdgeRoom_eq_ok.mpr room
  rw [stage_of_single rfl, perform, addEdge]
  simp only [authored, fresh, Bool.false_eq_true, if_false, hroom, ok_bind, checked,
    insertEdge_eq fresh, ofFault_ok]
  rfl

theorem stageAll_cons_of_ok {m : Mutation} {rest : List Mutation} {d' : Draft}
    (h : stage p d m = (d', none)) : stageAll p d (m :: rest) = stageAll p d' rest := by
  rw [stageAll, h]

theorem stageAll_addNodes {t : Table Node} {ns : List Node}
    (hd : d.Recorded ∧ d.working.Sound p)
    (split : t.entries = d.working.nodes.entries ++ ns.map fun n => (n.id, n))
    (admitted : ∀ n ∈ ns, p.AdmitsNode n) (room : t.size ≤ p.behavior.maxNodes) :
    ∃ d', stageAll p d (ns.map .addNode) = (d', none) ∧ (d'.Recorded ∧ d'.working.Sound p) ∧
      d'.working = { d.working with nodes := t } := by
  induction ns generalizing d with
  | nil =>
    have ht : t = d.working.nodes := Table.ext (by simpa using split)
    exact ⟨d, rfl, hd, by rw [ht]⟩
  | cons n rest ih =>
    obtain ⟨hn, hrest⟩ := List.forall_mem_cons.mp admitted
    obtain ⟨hfresh, hsize, hsplit⟩ := Table.fresh_of_split split
    have hstage := stage_addNode hfresh (Nat.lt_of_lt_of_le hsize room) hn
    have hkept := stage_keeps (p := p) Effect.sound (.addNode n) hd
    rw [hstage] at hkept
    obtain ⟨d', hrun, hd', hworking⟩ := ih hkept hsplit hrest
    exact ⟨d', (stageAll_cons_of_ok hstage).trans hrun, hd', hworking⟩

theorem stageAll_addEdges {t : Table Edge} {es : List Edge}
    (hd : d.Recorded ∧ d.working.Sound p)
    (split : t.entries = d.working.edges.entries ++ es.map fun e => (e.id, e))
    (authored : ∀ e ∈ es, e.inferred = false) (admitted : ∀ e ∈ es, p.AdmitsEdge d.working.nodes e)
    (ordered : t.values.Pairwise p.Bears) (room : t.size ≤ p.behavior.maxEdges) :
    ∃ d', stageAll p d (es.map .addEdge) = (d', none) ∧ (d'.Recorded ∧ d'.working.Sound p) ∧
      d'.working = { d.working with edges := t } := by
  induction es generalizing d with
  | nil =>
    have ht : t = d.working.edges := Table.ext (by simpa using split)
    exact ⟨d, rfl, hd, by rw [ht]⟩
  | cons e rest ih =>
    obtain ⟨hauthored, hauthoreds⟩ := List.forall_mem_cons.mp authored
    obtain ⟨he, hrest⟩ := List.forall_mem_cons.mp admitted
    obtain ⟨hfresh, hsize, hsplit⟩ := Table.fresh_of_split split
    -- the edges before this one are those that it was added after
    have hbears : ∀ o ∈ d.working.edges.values, p.Bears o e := by
      have hvalues : t.values = d.working.edges.values ++ e :: rest := by
        simp [Table.values, split, Function.comp_def]
      rw [hvalues, List.pairwise_append] at ordered
      exact fun o ho => ordered.2.2 o ho e List.mem_cons_self
    have hchecked : p.checkEdge d.working.nodes d.working.edges e = .ok () :=
      (Preset.checkEdge_eq_ok_iff (hd.2.fresh_id hfresh) hd.2.authored).mpr ⟨he, hbears⟩
    have hstage := stage_addEdge hauthored hfresh (Nat.lt_of_lt_of_le hsize room) hchecked
    have hkept := stage_keeps (p := p) Effect.sound (.addEdge e) hd
    rw [hstage] at hkept
    obtain ⟨d', hrun, hd', hworking⟩ := ih hkept hsplit hauthoreds hrest
    exact ⟨d', (stageAll_cons_of_ok hstage).trans hrun, hd', hworking⟩

/-- A sound document is put together on an empty one: first its nodes, then its edges. -/
theorem stageAll_elements {doc : Document} (hdoc : doc.Sound p) :
    ∃ mid last,
      stageAll p (start (.blank p doc.metadata.title)) (doc.nodes.values.map .addNode) =
        (mid, none) ∧
      stageAll p mid (doc.edges.values.map .addEdge) = (last, none) ∧ last.result = doc := by
  have hblank : Document.blank p doc.metadata.title = { metadata := doc.metadata } := by
    unfold Document.blank
    rw [← hdoc.preset, ← hdoc.version]
  -- the nodes go in while there are no edges, so the edges find both of their ends
  obtain ⟨mid, hnodes, hmid, hmidWorking⟩ :=
    stageAll_addNodes (d := start (.blank p doc.metadata.title)) (t := doc.nodes)
      ⟨recorded_start _, Document.sound_blank hdoc.titled⟩
      (Table.entries_eq_map hdoc.nodeKeys) hdoc.nodes hdoc.nodeRoom
  have hmidEdges : mid.working.edges.entries = [] := by
    rw [hmidWorking]
    rfl
  have hsplit : doc.edges.entries =
      mid.working.edges.entries ++ doc.edges.values.map fun e => (e.id, e) := by
    rw [hmidEdges]
    exact Table.entries_eq_map hdoc.edgeKeys
  have hadmitted : ∀ e ∈ doc.edges.values, p.AdmitsEdge mid.working.nodes e := by
    rw [hmidWorking]
    exact hdoc.edges
  obtain ⟨last, hedges, hlast, hlastWorking⟩ :=
    stageAll_addEdges hmid hsplit hdoc.authored hadmitted hdoc.ordered hdoc.edgeRoom
  refine ⟨mid, last, hnodes, hedges, ?_⟩
  calc last.result
      = last.working := hlast.1.result_eq
    _ = { start (.blank p doc.metadata.title) |>.working with
          nodes := doc.nodes, edges := doc.edges } := by rw [hlastWorking, hmidWorking]
    _ = doc := by rw [hblank]; rfl

end Draft

namespace Exchange

variable {p : Preset} {d : Document} {more : Fields}

/-- Elements that are read back, and whose mutations are accepted one after the other, are loaded
without a violation. -/
theorem foldlM_loadElement {α : Type} {kind : String} {decode : Json → Decoded α}
    {mutation? : α → Option Mutation} {write : α → Json} {m : α → Mutation} {items : List α}
    {draft draft' : Draft} {violations : List Violation} {k : Nat}
    (reads : ∀ a ∈ items, decode (write a) = .ok a ∧ mutation? a = some (m a))
    (accepted : Draft.stageAll p draft (items.map m) = (draft', none)) :
    ((items.map write).zipIdx k).foldlM (loadElement p kind decode mutation?) (draft, violations) =
      .ok (draft', violations) := by
  induction items generalizing draft k with
  | nil =>
    rw [List.map_nil, Draft.stageAll, Prod.mk.injEq] at accepted
    rw [accepted.1]
    rfl
  | cons a rest ih =>
    obtain ⟨⟨hdecode, hmutation⟩, hrest⟩ := List.forall_mem_cons.mp reads
    rw [List.map_cons, Draft.stageAll] at accepted
    split at accepted
    next mid hstage =>
      have hload : loadElement p kind decode mutation? (draft, violations) (write a, k) =
          .ok (mid, violations) := by
        simp only [loadElement, hdecode, hmutation, stageAt, hstage]
      rw [List.map_cons, List.zipIdx_cons, List.foldlM_cons, hload]
      exact ih hrest accepted
    next => simp at accepted

theorem metadata_of_export (hd : d.Sound p) (more : Fields) :
    ∃ metadata, metadataFields (d.exportFields ++ more) = (metadata, []) ∧
      presetMismatch p metadata = [] ∧ titleOf metadata = d.metadata.title := by
  refine ⟨_, rfl, ?_, ?_⟩
  · have hpreset : (Json.str d.metadata.presetId).same (.str p.id) = true := by
      rw [hd.preset]
      simp [Json.same]
    exact if_pos hpreset
  · have htrue : (Json.str d.metadata.title).isTruthy = true := by
      simpa [Json.isTruthy] using hd.titled
    exact if_pos htrue

theorem nodes_of_export :
    elements (d.exportFields ++ more) "nodes" = (d.nodes.values.map Node.toJson, []) := rfl

/-- No edge is left out where none is inferred. -/
theorem edges_of_export (authored : ∀ e ∈ d.edges.values, e.inferred = false) :
    elements (d.exportFields ++ more) "edges" = (d.edges.values.map Edge.toJson, []) := by
  have hall : d.edges.values.filter (fun e => !e.inferred) = d.edges.values :=
    List.filter_eq_self.mpr fun e he => by simp [authored e he]
  calc elements (d.exportFields ++ more) "edges"
      = ((d.edges.values.filter fun e => !e.inferred).map Edge.toJson, []) := rfl
    _ = (d.edges.values.map Edge.toJson, []) := by rw [hall]

/-- A sound document with finite numbers is loaded as it is from its export, whatever other fields
come after it. -/
theorem load_exportFields (hd : d.Sound p) (finite : d.Finite) (more : Fields) :
    load p (.obj (d.exportFields ++ more)) = .ok (.ok d) := by
  obtain ⟨metadata, hmetadata, hmismatch, htitle⟩ := metadata_of_export hd more
  obtain ⟨mid, last, hstageNodes, hstageEdges, hresult⟩ := Draft.stageAll_elements hd
  have hnodes : ((d.nodes.values.map Node.toJson).zipIdx).foldlM
      (loadElement p "nodes" Node.decode (some ∘ .addNode))
      (Draft.start (.blank p d.metadata.title), []) = .ok (mid, []) :=
    foldlM_loadElement (fun n hn => ⟨Node.decode_write (finite.nodes n hn) .exchange, rfl⟩)
      hstageNodes
  have hedges : ((d.edges.values.map Edge.toJson).zipIdx).foldlM
      (loadElement p "edges" Edge.decode authored?) (mid, []) = .ok (last, []) := by
    refine foldlM_loadElement
      (fun e he => ⟨Edge.decode_write (finite.edges e he) .exchange, ?_⟩) hstageEdges
    simp [authored?, hd.authored e he]
  unfold load
  simp only [hmetadata, hmismatch, htitle, nodes_of_export, edges_of_export hd.authored,
    List.append_nil, hnodes, hedges, ok_bind, pure_eq_ok, List.isEmpty_nil, if_true, hresult]

end Exchange

end GraphWorkbench

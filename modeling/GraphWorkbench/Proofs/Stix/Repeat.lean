import GraphWorkbench.Proofs.Document.Refusal
import GraphWorkbench.Proofs.Stix.Import
/-!
Importing a bundle once more. Whatever the first run added is there when the second one maps the
bundle, so it is not asked for again; and what the first run was refused is refused once more.
-/
namespace GraphWorkbench

open Outcome

namespace Document.GrowsBy

variable {d d' : Document} {k l : Nat}

theorem within (h : d.GrowsBy d' k l) : d.Within d' := by
  obtain ⟨_, ⟨_, hnodes, _⟩, ⟨_, hedges, _⟩⟩ := h
  exact
    { nodeKeys := fun _ => Table.has_of_append hnodes
      edgeKeys := fun _ => Table.has_of_append hedges
      edges := fun _ => Table.mem_values_of_append hedges
      nodesSize := Table.size_le_of_append hnodes
      edgesSize := Table.size_le_of_append hedges }

theorem nodes_eq (h : d.GrowsBy d' 0 l) : d'.nodes = d.nodes := by
  obtain ⟨added, hentries, hlength⟩ := h.nodes
  apply Table.ext
  rw [hentries, List.eq_nil_of_length_eq_zero hlength, List.append_nil]

end Document.GrowsBy

theorem Effect.has_node_iff {p : Preset} {d d' : Document} {n : Node} {key : String}
    (h : Effect p d (.addNode n) d') :
    d'.nodes.has key = true ↔ key = n.id ∨ d.nodes.has key = true := by
  cases h
  exact Table.has_put

theorem Effect.has_edge {p : Preset} {d d' : Document} {e : Edge}
    (h : Effect p d (.addEdge e) d') : d'.edges.has e.id = true := by
  cases h
  exact Table.has_put.mpr (.inl rfl)

namespace Stix

variable {p : Preset} {d d' : Document} {o : Options} {items accepted : List Item} {item : Item}

/-! Every staged item is settled: what it asks for is there in the end, or is refused in the end as
well. -/

section Staging

variable {draft draft' : Draft}

theorem Staged.grows (h : Staged p draft items accepted draft') (adds : ∀ i ∈ items, i.Adds) :
    draft.working.GrowsBy draft'.working (accepted.countP isNodeItem)
      (accepted.countP isEdgeItem) :=
  performAll_grows (fun i hi => adds i (h.sublist.subset hi)) h.performAll_eq

/-- What is staged in two parts: the second part goes on from the draft of the first. -/
theorem Staged.append {rest : List Item} (h : Staged p draft (items ++ rest) accepted draft') :
    ∃ mid first second, Staged p draft items first mid ∧ Staged p mid rest second draft' := by
  induction items generalizing draft accepted with
  | nil => exact ⟨draft, [], accepted, .done, h⟩
  | cons item items ih =>
    cases h with
    | accept performed others =>
      obtain ⟨mid, first, second, hfirst, hsecond⟩ := ih others
      exact ⟨mid, item :: first, second, .accept performed hfirst, hsecond⟩
    | refuse refused others =>
      obtain ⟨mid, first, second, hfirst, hsecond⟩ := ih others
      exact ⟨mid, first, second, .refuse refused hfirst, hsecond⟩

/-- The moment at which an item was staged, with the run of the items after it. -/
theorem Staged.at_mem (h : Staged p draft items accepted draft') (hitem : item ∈ items) :
    ∃ before after rest accepted', (∀ i ∈ rest, i ∈ items) ∧
      Staged p after rest accepted' draft' ∧
      (Draft.perform p before item.mutation = (after, none) ∨
        after = before ∧ ∃ r, Draft.stage p before item.mutation = (before, some (.rejected r))) := by
  obtain ⟨earlier, rest, rfl⟩ := List.append_of_mem hitem
  obtain ⟨before, _, _, _, hlast⟩ := h.append
  have hsub : ∀ i ∈ rest, i ∈ earlier ++ item :: rest := fun i hi =>
    List.mem_append_right _ (List.mem_cons_of_mem _ hi)
  cases hlast with
  | accept performed others => exact ⟨before, _, rest, _, hsub, others, .inl performed⟩
  | refuse refused others => exact ⟨before, _, rest, _, hsub, others, .inr ⟨rfl, _, refused⟩⟩

theorem Staged.node_settled (h : Staged p draft items accepted draft')
    (adds : ∀ i ∈ items, i.Adds) (hitem : item ∈ items) {n : Node}
    (asks : item.mutation = .addNode n) (position : Position) :
    draft'.working.nodes.has n.id = true ∨
      Rejects ((Draft.start draft'.working).addNode p { n with position }) := by
  obtain ⟨before, after, rest, accepted', hsub, hrest, houtcome⟩ := h.at_mem hitem
  have hgrows := hrest.grows fun i hi => adds i (hsub i hi)
  rw [asks] at houtcome
  rcases houtcome with hperformed | ⟨rfl, r, hrefused⟩
  · left
    have heffect := (Draft.accepted_of_perform rfl hperformed).effect
    exact hgrows.within.nodeKeys _ (heffect.has_node_iff.mpr (.inl rfl))
  · right
    rw [Draft.stage_of_single rfl, Draft.perform] at hrefused
    exact Draft.rejects_addNode position (Draft.rejects_of_attempt hrefused) hgrows.within

theorem Staged.edge_settled (h : Staged p draft items accepted draft')
    (edges : ∀ i ∈ items, ∃ e, i.mutation = .addEdge e) (hitem : item ∈ items) {e : Edge}
    (asks : item.mutation = .addEdge e) :
    draft'.working.edges.has e.id = true ∨
      Rejects ((Draft.start draft'.working).addEdge p e) := by
  obtain ⟨before, after, rest, accepted', hsub, hrest, houtcome⟩ := h.at_mem hitem
  have hgrows := hrest.grows fun i hi => .inr (edges i (hsub i hi))
  rw [asks] at houtcome
  rcases houtcome with hperformed | ⟨rfl, r, hrefused⟩
  · left
    have heffect := (Draft.accepted_of_perform rfl hperformed).effect
    exact hgrows.within.edgeKeys _ heffect.has_edge
  · right
    rw [Draft.stage_of_single rfl, Draft.perform] at hrefused
    -- only edges were staged later, so no missing end has come since
    have hnodes : accepted'.countP isNodeItem = 0 := by
      refine List.countP_eq_zero.mpr fun i hi => ?_
      obtain ⟨f, hf⟩ := edges i (hsub i (hrest.sublist.subset hi))
      simp [isNodeItem, hf]
    rw [hnodes] at hgrows
    exact Draft.rejects_addEdge (Draft.rejects_of_attempt hrefused) hgrows.nodes_eq hgrows.within

/-- A node that is there in the end was there before, or an item asks for it. -/
theorem Staged.has_node (h : Staged p draft items accepted draft') (adds : ∀ i ∈ items, i.Adds)
    {key : String} (there : draft'.working.nodes.has key = true) :
    draft.working.nodes.has key = true ∨
      ∃ i ∈ items, ∃ n, i.mutation = .addNode n ∧ n.id = key := by
  induction h with
  | done => exact .inl there
  | @accept draft mid _ item rest _ performed _ ih =>
    obtain ⟨hitem, hrest⟩ := List.forall_mem_cons.mp adds
    rcases ih hrest there with hmid | ⟨i, hi, hasked⟩
    · have heffect := (Draft.accepted_of_perform hitem.single performed).effect
      rcases hitem with ⟨n, hm⟩ | ⟨e, hm⟩
      · rw [hm] at heffect
        rcases heffect.has_node_iff.mp hmid with hkey | hold
        · exact .inr ⟨item, List.mem_cons_self, n, hm, hkey.symm⟩
        · exact .inl hold
      · rw [hm] at heffect
        exact .inl (heffect.grows_addEdge.nodes_eq ▸ hmid)
    · exact .inr ⟨i, List.mem_cons_of_mem _ hi, hasked⟩
  | refuse _ _ ih =>
    rcases ih (List.forall_mem_cons.mp adds).2 there with hold | ⟨i, hi, hasked⟩
    · exact .inl hold
    · exact .inr ⟨i, List.mem_cons_of_mem _ hi, hasked⟩

end Staging

/-! Mapping again asks for nothing new. -/

section Mapping

variable {c c' second second' : Candidate} {v : ValidObject} {k k' : Known}

/-- An item asks for the same as another one, if for a node perhaps at another place, and for nothing
that the document has. -/
inductive Item.Echoes (d' : Document) (item : Item) : Item → Prop
  | node {n : Node} (asks : item.mutation = .addNode n) (fresh : d'.nodes.has n.id = false)
      (position : Position) : Echoes d' item { item with mutation := .addNode { n with position } }
  | edge {e : Edge} (asks : item.mutation = .addEdge e) (fresh : d'.edges.has e.id = false) :
      Echoes d' item item

/-- The second candidate asks for nothing but what the first one asks for and the document lacks. -/
def Candidate.Echoes (d' : Document) (c second : Candidate) : Prop :=
  ∀ item ∈ second.items, ∃ first ∈ c.items, first.Echoes d' item

namespace Candidate.Echoes

theorem congr (h : c.Echoes d' second) (first : c'.items = c.items)
    (again : second'.items = second.items) : c'.Echoes d' second' := by
  unfold Candidate.Echoes
  rw [first, again]
  exact h

theorem more (h : c.Echoes d' second) (item : Item) : (c.add item).Echoes d' second := by
  intro i hi
  obtain ⟨first, hfirst, hechoes⟩ := h i hi
  exact ⟨first, List.mem_append_left _ hfirst, hechoes⟩

theorem add (h : c.Echoes d' second) {item again : Item} (echoes : item.Echoes d' again) :
    (c.add item).Echoes d' (second.add again) := by
  intro i hi
  rcases List.mem_append.mp hi with hold | hnew
  · exact h.more item i hold
  · rw [List.mem_singleton.mp hnew]
    exact ⟨item, List.mem_append_right _ (List.mem_singleton_self _), echoes⟩

theorem foldl {α : Type} {step again : Candidate → α → Candidate}
    (echoes : ∀ c second x, Candidate.Echoes d' c second → (step c x).Echoes d' (again second x))
    (xs : List α) (h : c.Echoes d' second) : (xs.foldl step c).Echoes d' (xs.foldl again second) := by
  induction xs generalizing c second with
  | nil => exact h
  | cons x rest ih => exact ih (echoes c second x h)

end Candidate.Echoes

/-- Both runs have put the same nodes on the list, but for those that are in the document now. -/
structure NodeStage.Echoes (d' : Document) (stage again : NodeStage) : Prop where
  candidate : stage.candidate.Echoes d' again.candidate
  staged : ∀ id, d'.nodes.has id = false → (id ∈ again.staged ↔ id ∈ stage.staged)

/-- A node can be put anywhere when it can be put somewhere. -/
theorem nodeOf_moved {typeId : String} {slot : Nat} {n : Node}
    (h : nodeOf o v typeId slot = .ok n) (slot' : Nat) :
    ∃ position, nodeOf o v typeId slot' = .ok { n with position } := by
  obtain ⟨position, hposition, hn⟩ := bind_eq_ok.mp h
  obtain rfl := Except.ok.inj hn
  have hcolumns : o.columns ≠ 0 := by
    intro hzero
    rw [gridPosition, if_pos hzero] at hposition
    exact nomatch hposition
  refine ⟨⟨o.spacing.times ((slot' : Int).fmod o.columns),
    o.spacing.times ((slot' : Int).fdiv o.columns)⟩, ?_⟩
  rw [nodeOf, gridPosition, if_neg hcolumns]
  rfl

theorem stageNode_echoes (within : ∀ key, d.nodes.has key = true → d'.nodes.has key = true)
    {stage stage' again : NodeStage} (h : stageNode p o d stage v = .ok stage')
    (echoes : stage.Echoes d' again) : Gives (stageNode p o d' again v) (stage'.Echoes d') := by
  have hsame : ∀ {c c'}, c.items = stage.candidate.items → c'.items = again.candidate.items →
      Candidate.Echoes d' c c' := fun hc hc' => echoes.candidate.congr hc hc'
  unfold stageNode at h ⊢
  by_cases haccepts : (!o.accepts v.kind.word) = true
  · simp only [haccepts, if_true] at h ⊢
    obtain rfl := Except.ok.inj h
    exact Gives.ok ⟨hsame rfl rfl, echoes.staged⟩
  · simp only [haccepts] at h ⊢
    cases htype : nodeTypeFor? p o v.kind with
    | none =>
      simp only [htype] at h ⊢
      obtain rfl := Except.ok.inj h
      exact Gives.ok ⟨hsame rfl rfl, echoes.staged⟩
    | some typeId =>
      simp only [htype] at h ⊢
      by_cases hold : d.nodes.has v.id = true
      · -- what the first run found there is still there
        simp only [hold, within v.id hold, if_true] at h ⊢
        obtain rfl := Except.ok.inj h
        exact Gives.ok ⟨hsame rfl rfl, echoes.staged⟩
      · simp only [hold] at h
        obtain ⟨n, hn, hstage⟩ := bind_eq_ok.mp h
        obtain rfl := Except.ok.inj hstage
        have hid : n.id = v.id := by
          obtain ⟨_, _, hnode⟩ := bind_eq_ok.mp hn
          rw [← Except.ok.inj hnode]
        by_cases hnew : d'.nodes.has v.id = true
        · -- the first run added the node, so the second one only warns of it
          simp only [hnew, if_true]
          refine Gives.ok ⟨(hsame rfl rfl).more _, ?_⟩
          intro id habsent
          have hother : id ≠ v.id := by
            rintro rfl
            exact Bool.false_ne_true (habsent.symm.trans hnew)
          rw [List.mem_cons, echoes.staged id habsent]
          exact (or_iff_right hother).symm
        · simp only [hnew]
          obtain ⟨position, hmoved⟩ := nodeOf_moved hn again.slot
          rw [hmoved]
          have hfresh : d'.nodes.has n.id = false := hid ▸ Bool.eq_false_iff.mpr hnew
          refine Gives.ok ⟨(hsame rfl rfl).add (.node rfl hfresh position), ?_⟩
          intro id habsent
          rw [List.mem_cons, List.mem_cons, echoes.staged id habsent]

theorem stageNodes_echoes (within : ∀ key, d.nodes.has key = true → d'.nodes.has key = true)
    {things : List ValidObject} {stage stage' again : NodeStage}
    (h : things.foldlM (stageNode p o d) stage = .ok stage') (echoes : stage.Echoes d' again) :
    Gives (things.foldlM (stageNode p o d') again) (stage'.Echoes d') := by
  induction things generalizing stage again with
  | nil => exact Gives.ok (Except.ok.inj h ▸ echoes)
  | cons v rest ih =>
    rw [List.foldlM_cons] at h ⊢
    obtain ⟨mid, hv, hrest⟩ := bind_eq_ok.mp h
    exact (stageNode_echoes within hv echoes).bind fun _ hmid => ih hrest hmid

/-- References are looked up with the same result where the same nodes are known. -/
theorem resolve_echoes (agree : ∀ ref, k'.nodes.contains ref = k.nodes.contains ref)
    (h : c.Echoes d' second) (refs : List String) :
    (resolve k' second v refs).2 = (resolve k c v refs).2 ∧
      (resolve k c v refs).1.Echoes d' (resolve k' second v refs).1 := by
  refine ⟨?_, h.congr (items_resolve k refs) (items_resolve k' refs)⟩
  induction refs with
  | nil => rfl
  | cons ref rest ih =>
    rw [resolve, resolve, agree]
    split
    · exact ih
    · split <;> split <;> rfl

/-- What follows a look-up of references that are all known echoes, when its steps do. -/
theorem resolved_echoes (agree : ∀ ref, k'.nodes.contains ref = k.nodes.contains ref)
    (h : c.Echoes d' second) (refs : List String) {step again : Candidate → Candidate}
    (echoes : ∀ {c second}, Candidate.Echoes d' c second → (step c).Echoes d' (again second)) :
    Candidate.Echoes d'
      (match resolve k c v refs with | (c, false) => c | (c, true) => step c)
      (match resolve k' second v refs with | (c, false) => c | (c, true) => again c) := by
  obtain ⟨hsame, hechoes⟩ := resolve_echoes (v := v) agree h refs
  generalize resolve k c v refs = first at *
  generalize resolve k' second v refs = other at *
  obtain ⟨c, known⟩ := first
  obtain ⟨second, known'⟩ := other
  obtain rfl : known' = known := hsame
  cases known' with
  | false => exact hechoes
  | true => exact echoes hechoes

theorem addEdge_echoes (within : ∀ key, d.edges.has key = true → d'.edges.has key = true)
    (h : c.Echoes d' second) (e : Edge) : (addEdge d c v e).Echoes d' (addEdge d' second v e) := by
  unfold addEdge
  by_cases hold : d.edges.has e.id = true
  · rw [if_pos hold, if_pos (within e.id hold)]
    exact h.congr rfl rfl
  · rw [if_neg hold]
    by_cases hnew : d'.edges.has e.id = true
    · rw [if_pos hnew]
      exact (h.congr rfl rfl).more _
    · rw [if_neg hnew]
      exact h.add (.edge rfl (Bool.eq_false_iff.mpr hnew))

theorem stageRelationship_echoes
    (within : ∀ key, d.edges.has key = true → d'.edges.has key = true)
    (agree : ∀ ref, k'.nodes.contains ref = k.nodes.contains ref) (h : c.Echoes d' second) :
    (stageRelationship p o d k c v).Echoes d' (stageRelationship p o d' k' second v) := by
  unfold stageRelationship
  simp only
  split
  next => exact h.congr rfl rfl
  next => exact resolved_echoes agree h _ fun h => addEdge_echoes within h _

theorem stageSighting_echoes
    (within : ∀ key, d.edges.has key = true → d'.edges.has key = true)
    (agree : ∀ ref, k'.nodes.contains ref = k.nodes.contains ref) (h : c.Echoes d' second) :
    (stageSighting p o d k c v).Echoes d' (stageSighting p o d' k' second v) := by
  unfold stageSighting
  simp only
  split
  next => exact h.congr rfl rfl
  next =>
    split
    next => exact h.congr rfl rfl
    next =>
      refine resolved_echoes agree h _ fun h => ?_
      refine Candidate.Echoes.foldl (fun c second place h => ?_) _ h
      exact addEdge_echoes within h _

theorem stageConnection_echoes
    (within : ∀ key, d.edges.has key = true → d'.edges.has key = true)
    (agree : ∀ ref, k'.nodes.contains ref = k.nodes.contains ref) (h : c.Echoes d' second) :
    (stageConnection p o d k c v).Echoes d' (stageConnection p o d' k' second v) := by
  have hcount : (c.count v.kind.word).Echoes d' (second.count v.kind.word) := h.congr rfl rfl
  unfold stageConnection
  simp only
  split
  · exact hcount.congr rfl rfl
  · split
    · exact stageRelationship_echoes within agree hcount
    · exact stageSighting_echoes within agree hcount

/-- Where a document has grown by what an earlier mapping asked for, mapping again comes to an answer
that echoes the earlier one. -/
theorem mapToGraph_echoes {valid : List ValidObject} (h : mapToGraph p o d valid = .ok c)
    (within : d.Within d')
    (asked : ∀ key, d'.nodes.has key = true → d.nodes.has key = true ∨
      ∃ i ∈ c.items, ∃ n, i.mutation = .addNode n ∧ n.id = key) :
    Gives (mapToGraph p o d' valid) (c.Echoes d') := by
  obtain ⟨stage, hstage, hc⟩ := bind_eq_ok.mp h
  obtain ⟨_, es, hstage', hplaces, hitems, hes⟩ := mapToGraph_split h
  obtain rfl := Except.ok.inj (hstage.symm.trans hstage')
  have hstart : NodeStage.Echoes d' { slot := d.nodes.size } { slot := d'.nodes.size } :=
    ⟨fun _ hitem => (nomatch hitem), fun _ _ => Iff.rfl⟩
  refine (stageNodes_echoes within.nodeKeys hstage hstart).bind fun again hagain => ?_
  have hstaged : ∀ key, d'.nodes.has key = true → d.nodes.has key = true ∨ key ∈ stage.staged := by
    intro key there
    rcases asked key there with hold | ⟨i, hi, n, hm, rfl⟩
    · exact .inl hold
    · rw [hitems] at hi
      rcases List.mem_append.mp hi with hnode | hedge
      · obtain ⟨n', hm', hn'⟩ := hplaces i hnode
        obtain rfl := Mutation.addNode.inj (hm.symm.trans hm')
        exact .inr hn'
      · obtain ⟨e, he⟩ := hes i hedge
        exact nomatch hm.symm.trans he
  -- a node that the second run does not stage again is in the document by now, so the references
  -- that resolve are the same
  have hagree : ∀ ref, (Known.mk (again.staged ++ d'.nodes.keys) again.filtered).nodes.contains ref =
      (Known.mk (stage.staged ++ d.nodes.keys) stage.filtered).nodes.contains ref := by
    intro ref
    change (again.staged ++ d'.nodes.keys).contains ref = (stage.staged ++ d.nodes.keys).contains ref
    rw [Bool.eq_iff_iff, List.contains_iff_mem, List.contains_iff_mem, List.mem_append,
      List.mem_append, ← Table.has_iff_mem_keys, ← Table.has_iff_mem_keys]
    cases there : d'.nodes.has ref with
    | true => simpa using (hstaged ref there).symm
    | false =>
      have hold : d.nodes.has ref ≠ true := fun hold =>
        Bool.false_ne_true (there.symm.trans (within.nodeKeys ref hold))
      simp [hold, hagain.staged ref there]
  obtain rfl := Except.ok.inj hc
  refine Gives.ok ?_
  exact hagain.candidate.foldl
    (fun _ _ v h => stageConnection_echoes (v := v) within.edgeKeys hagree h) _

end Mapping

/-- Items that are all refused leave the draft as it is, and none of them is accepted. -/
theorem stageItems_refused {draft : Draft}
    (refused : ∀ i ∈ items, ∃ r, Draft.stage p draft i.mutation = (draft, some (.rejected r)))
    (c : Candidate) : ∃ c', stageItems p draft c items = .ok (c', []) := by
  induction items generalizing c with
  | nil => exact ⟨c, rfl⟩
  | cons i rest ih =>
    obtain ⟨⟨r, hr⟩, hrest⟩ := List.forall_mem_cons.mp refused
    rw [stageItems, hr]
    exact ih hrest _

/-- What echoes the items of an earlier run is refused by the document that the run came to. -/
theorem Staged.refuses_echo {draft draft' : Draft} {ns es : List Item}
    (h : Staged p draft (ns ++ es) accepted draft')
    (nodes : ∀ i ∈ ns, ∃ n, i.mutation = .addNode n)
    (edges : ∀ i ∈ es, ∃ e, i.mutation = .addEdge e) {first again : Item} (hfirst : first ∈ ns ++ es)
    (echoes : first.Echoes draft'.working again) :
    ∃ r, Draft.stage p (Draft.start draft'.working) again.mutation =
      (Draft.start draft'.working, some (.rejected r)) := by
  have hadds : ∀ i ∈ ns ++ es, i.Adds := by
    intro i hi
    exact (List.mem_append.mp hi).imp (nodes i) (edges i)
  cases echoes with
  | @node n asks fresh position =>
    have hsettled := h.node_settled hadds hfirst asks position
    have hrejects := hsettled.resolve_left (Bool.eq_false_iff.mp fresh)
    rw [Draft.stage_of_single rfl, Draft.perform]
    exact Draft.attempt_of_rejects hrejects _
  | @edge e asks fresh =>
    -- an item that asks for an edge comes after all nodes
    have hmem : first ∈ es := by
      refine (List.mem_append.mp hfirst).resolve_left fun hnode => ?_
      obtain ⟨n, hn⟩ := nodes first hnode
      exact absurd (hn.symm.trans asks) (by simp)
    obtain ⟨mid, _, _, _, hsecond⟩ := h.append
    have hsettled := hsecond.edge_settled edges hmem asks
    have hrejects := hsettled.resolve_left (Bool.eq_false_iff.mp fresh)
    rw [asks, Draft.stage_of_single rfl, Draft.perform]
    exact Draft.attempt_of_rejects hrejects _

/-- A commit of what staging accepted leads to what staging came to. -/
theorem Staged.commit_document {s : Store} {draft' : Draft}
    (h : Staged s.preset (Draft.start s.document) items accepted draft') :
    (commit s accepted).1.document = draft'.working ∧ (commit s accepted).1.preset = s.preset := by
  cases accepted with
  | nil =>
    have hrun := h.performAll_eq
    rw [List.map_nil, Draft.performAll, Prod.mk.injEq] at hrun
    exact ⟨congrArg Draft.working hrun.1, rfl⟩
  | cons item rest =>
    obtain ⟨patch, hplan⟩ := h.plan_eq
    let m : Mutation := .batch (some importLabel) ((item :: rest).map Item.mutation)
    have hcommit : (commit s (item :: rest)).1 = (s.apply m).1 := rfl
    rw [hcommit]
    refine ⟨?_, (Store.apply_settings s m).1⟩
    by_cases hempty : patch = []
    · subst hempty
      rw [Store.apply_of_nil hplan]
      exact (Draft.trail_of_plan hplan).eq_of_nil
    · rw [Store.apply_of_ne_nil hplan hempty]
      rfl

/-- After a commit of what was prepared, the same bundle is prepared again with nothing to commit. -/
theorem prepare_again {s s' : Store} {origin : Bundle.Origin} {b : Bundle}
    {report : ValidationReport} {c : Candidate}
    (h : prepare s o origin = .ok (b, report, c, accepted))
    (document : s'.document = (commit s accepted).1.document)
    (preset : s'.preset = (commit s accepted).1.preset) :
    ∃ again, prepare s' o origin = .ok (b, report, again, []) := by
  obtain ⟨hread, rfl, mapped, hmapped, hstage⟩ := prepare_eq_ok_iff.mp h
  have hadds := mapToGraph_adds hmapped
  obtain ⟨draft', hstaged⟩ := staged_of_stageItems hstage
  obtain ⟨hdocument, hpreset⟩ := hstaged.commit_document
  -- the first run put into the document what it was asked for, and nothing else
  have hwithin : s.document.Within draft'.working := (hstaged.grows hadds).within
  obtain ⟨second, hsecond, hechoes⟩ :=
    mapToGraph_echoes hmapped hwithin fun key => hstaged.has_node hadds
  obtain ⟨stage, es, _, hplaces, hitems, hes⟩ := mapToGraph_split hmapped
  rw [hitems] at hstaged
  have hnodes : ∀ i ∈ stage.candidate.items, ∃ n, i.mutation = .addNode n := by
    intro i hi
    obtain ⟨n, hn, _⟩ := hplaces i hi
    exact ⟨n, hn⟩
  have hrefused : ∀ i ∈ second.items, ∃ r, Draft.stage s.preset (Draft.start draft'.working)
      i.mutation = (Draft.start draft'.working, some (.rejected r)) := by
    intro i hi
    obtain ⟨first, hfirst, hecho⟩ := hechoes i hi
    exact hstaged.refuses_echo hnodes hes (hitems ▸ hfirst) hecho
  obtain ⟨again, hagain⟩ := stageItems_refused hrefused second
  refine ⟨again, prepare_eq_ok_iff.mpr ⟨hread, rfl, second, ?_, ?_⟩⟩
  · rw [document, preset, hdocument, hpreset]
    exact hsecond
  · rw [document, preset, hdocument, hpreset]
    exact hagain

section Example

/-- Hosts, and links of which each host has one at most. -/
def hostsPreset : Preset :=
  { id := "net", name := "Net", version := "2.0.0"
    nodeTypes := [{ id := "host", name := "Host", style := { color := "#000000" } }]
    relationships := [{ id := "link", name := "Link", sourceTypes := ["host"],
                        targetTypes := ["host"], multiplicity := .oneToOne }] }

def hostsStore : Store :=
  { preset := hostsPreset, document := .blank hostsPreset
    history := { limit := 1, limit_pos := by decide }, log := { limit := 5 } }

def hostsOptions : Options :=
  { unwanted := ["location"], typeOf := [("identity", "host"), ("location", "host")]
    relationshipOf := [("uses", "link")] }

/-- An object with the fields that all objects have. -/
def dated (type id : String) (fields : List (String × Json)) : Json :=
  .obj ([("type", .str type), ("id", .str id), ("created", .str "2020-01-01T00:00:00Z"),
    ("modified", .str "2020-01-01T00:00:00Z")] ++ fields)

def uses (id source target : String) : Json :=
  dated "relationship" id [("relationship_type", .str "uses"), ("source_ref", .str source),
    ("target_ref", .str target)]

/-- Two hosts and a link between them; a second link, for which there is no room; a link to a host
that is missing; an object that is not wanted, one of a type that is not mapped, and no object. -/
def mixedBundle : Json :=
  .obj [("objects", .arr [dated "identity" "identity--a" [("name", .str "a")],
    dated "identity" "identity--b" [("name", .str "b")],
    uses "relationship--a" "identity--a" "identity--b",
    uses "relationship--b" "identity--a" "identity--b",
    uses "relationship--c" "identity--a" "identity--c", dated "location" "location--a" [],
    dated "tool" "tool--a" [("name", .str "a")], .null])]

theorem mixedBundle_counts :
    (importInto hostsStore hostsOptions (.value mixedBundle) false).2.toOption.map
      (fun t => (t.objectsRead, t.nodesCreated, t.edgesCreated, t.skipped)) = some (8, 2, 1, 1) := by
  decide +kernel

end Example

/-- What is imported a second time, right after it was imported, creates nothing: the second run ends
as the first one did, and leaves the document, the history and the revision as they are. -/
theorem importInto_again {s s' : Store} {origin : Bundle.Origin} {summary : Summary}
    (h : importInto s o origin false = (s', .ok summary)) :
    ∃ again log, importInto s' o origin false = ({ s' with log }, .ok again) ∧
      again.nodesCreated = 0 ∧ again.edgesCreated = 0 := by
  cases hprepare : prepare s o origin with
  | error e =>
    rw [importInto_of_error hprepare] at h
    exact nomatch congrArg Prod.snd h
  | ok prepared =>
    obtain ⟨b, report, c, accepted⟩ := prepared
    obtain ⟨mapped, hadds, hstage⟩ := staged_of_prepare hprepare
    rw [importInto_of_commit hprepare (commit_accepted hadds hstage).1] at h
    obtain ⟨rfl, hsummary⟩ := Prod.mk.inj h
    obtain rfl := Except.ok.inj hsummary
    let told := announce (commit s accepted).1 (summarize b report c accepted)
    -- telling of the first run changes nothing but the log
    obtain ⟨again, hagain⟩ : ∃ again, prepare told o origin = .ok (b, report, again, []) :=
      prepare_again hprepare rfl rfl
    rw [importInto_of_commit hagain rfl]
    exact ⟨_, _, rfl, rfl, rfl⟩

theorem importInto_again_mixedBundle :
    ∃ s' summary, importInto hostsStore hostsOptions (.value mixedBundle) false =
        (s', .ok summary) ∧
      (summary.objectsRead, summary.nodesCreated, summary.edgesCreated, summary.skipped) =
        (8, 2, 1, 1) ∧
      ∃ again log, importInto s' hostsOptions (.value mixedBundle) false =
          ({ s' with log }, .ok again) ∧
        again.nodesCreated = 0 ∧ again.edgesCreated = 0 := by
  have hcounts := mixedBundle_counts
  cases hrun : importInto hostsStore hostsOptions (.value mixedBundle) false with
  | mk s' outcome =>
    rw [hrun] at hcounts
    obtain ⟨summary, hsome, hcounted⟩ := Option.map_eq_some_iff.mp hcounts
    obtain rfl : outcome = .ok summary := eq_ok_of_toOption hsome
    exact ⟨s', summary, rfl, hcounted, importInto_again hrun⟩

end Stix

end GraphWorkbench

import GraphWorkbench.Proofs.Document.Timeline
import GraphWorkbench.Stix.Import
/-!
Imports are atomic and only add. Items that are refused leave no trace on the draft on which they
are staged, so the others come to the same when they are committed as one batch; that batch puts
new nodes and edges behind the old ones, and one step back takes all of it away.
-/
namespace GraphWorkbench

open Outcome

/-- A document is another one with some nodes and edges behind those that it had. -/
structure Document.GrowsBy (d d' : Document) (nodes edges : Nat) : Prop where
  metadata : d'.metadata = d.metadata
  nodes : ∃ added, d'.nodes.entries = d.nodes.entries ++ added ∧ added.length = nodes
  edges : ∃ added, d'.edges.entries = d.edges.entries ++ added ∧ added.length = edges

namespace Document.GrowsBy

variable {d mid d' : Document} {m n k l : Nat}

theorem refl (d : Document) : d.GrowsBy d 0 0 :=
  ⟨rfl, ⟨[], by simp⟩, ⟨[], by simp⟩⟩

theorem trans (h : d.GrowsBy mid m n) (h' : mid.GrowsBy d' k l) :
    d.GrowsBy d' (m + k) (n + l) := by
  obtain ⟨hmeta, ⟨a, ha, hal⟩, ⟨b, hb, hbl⟩⟩ := h
  obtain ⟨hmeta', ⟨a', ha', hal'⟩, ⟨b', hb', hbl'⟩⟩ := h'
  refine ⟨hmeta'.trans hmeta, ⟨a ++ a', ?_, ?_⟩, ⟨b ++ b', ?_, ?_⟩⟩
  · rw [ha', ha, List.append_assoc]
  · rw [List.length_append, hal, hal']
  · rw [hb', hb, List.append_assoc]
  · rw [List.length_append, hbl, hbl']

/-- What grew by nothing is the same. -/
theorem eq_zero_of_self (h : d.GrowsBy d m n) : m = 0 ∧ n = 0 := by
  obtain ⟨_, ⟨a, ha, hal⟩, ⟨b, hb, hbl⟩⟩ := h
  have hnil : a = [] := by simpa using ha
  have hnil' : b = [] := by simpa using hb
  rw [← hal, ← hbl, hnil, hnil']
  exact ⟨rfl, rfl⟩

end Document.GrowsBy

namespace Effect

variable {p : Preset} {d d' : Document}

theorem grows_addNode {n : Node} (h : Effect p d (.addNode n) d') : d.GrowsBy d' 1 0 := by
  cases h with
  | addNode fresh room checked =>
    exact ⟨rfl, ⟨[(n.id, n)], Table.entries_put_new fresh, rfl⟩, ⟨[], by simp⟩⟩

theorem grows_addEdge {e : Edge} (h : Effect p d (.addEdge e) d') : d.GrowsBy d' 0 1 := by
  cases h with
  | addEdge authored fresh room checked =>
    exact ⟨rfl, ⟨[], by simp⟩, ⟨[(e.id, e)], Table.entries_put_new fresh, rfl⟩⟩

end Effect

namespace Store

variable {s : Store} {m : Mutation} {patch : Patch} {d : Document}

/-- What a history keeps below a new commit: all of it while there is room, and else all but the
oldest commit. -/
theorem take_limit_cons {limit : Nat} (pos : 0 < limit) (c : Commit) (past : List Commit) :
    ∃ kept, (c :: past).take limit = c :: kept ∧ (past.length < limit → kept = past) ∧
      (past.length = limit → kept = past.dropLast) := by
  obtain ⟨n, rfl⟩ : ∃ n, limit = n + 1 := ⟨limit - 1, by omega⟩
  refine ⟨past.take n, List.take_succ_cons, ?_, ?_⟩
  · intro hroom
    exact List.take_of_length_le (by omega)
  · intro hfull
    rw [List.dropLast_eq_take, hfull, Nat.add_sub_cancel]

/-- A step back right after a commit gives the document before it. -/
theorem undo_of_apply (h : Draft.plan s.preset s.document m = .ok (patch, d)) (hne : patch ≠ []) :
    (s.apply m).1.undo.2 = .ok true ∧ (s.apply m).1.undo.1.document = s.document := by
  have happly := apply_of_ne_nil h hne
  have hback : patch.inverse.apply d = .ok s.document := (Draft.trail_of_plan h).inverse.apply_eq
  obtain ⟨kept, htake, _⟩ := take_limit_cons s.history.limit_pos ⟨m.label, patch⟩ s.history.past
  have hundo : (s.apply m).1.history.undo =
      some (⟨m.label, patch⟩, { s.history with past := kept, future := [⟨m.label, patch⟩] }) := by
    rw [happly]
    simp only [advance, History.record, History.undo, htake]
  have hdocument : (s.apply m).1.document = d := by rw [happly]; rfl
  rw [Store.undo, hundo]
  simp only [hdocument, hback]
  exact ⟨trivial, rfl⟩

/-- A store after an import that put something into the document: it is one commit further, and
that commit can be taken back. -/
structure Imported (s s' : Store) (nodes edges : Nat) : Prop where
  grows : s.document.GrowsBy s'.document nodes edges
  revision : s'.revision = s.revision + 1
  recorded : ∃ c kept, s'.history = { s.history with past := c :: kept, future := [] } ∧
    (s.history.past.length < s.history.limit → kept = s.history.past) ∧
    (s.history.past.length = s.history.limit → kept = s.history.past.dropLast)
  undone : s'.undo.2 = .ok true ∧ s'.undo.1.document = s.document

theorem undo_withLog (s : Store) (log : EventLog Notice) :
    ({ s with log } : Store).undo.2 = s.undo.2 ∧
      ({ s with log } : Store).undo.1.document = s.undo.1.document := by
  unfold undo
  cases hstep : s.history.undo with
  | none => exact ⟨rfl, rfl⟩
  | some step =>
    obtain ⟨c, history⟩ := step
    simp only
    cases hback : c.patch.inverse.apply s.document with
    | error f => exact ⟨rfl, rfl⟩
    | ok d => exact ⟨rfl, rfl⟩

/-- The log has no part in it. -/
theorem Imported.withLog {s' : Store} {nodes edges : Nat} (h : s.Imported s' nodes edges)
    (log : EventLog Notice) : s.Imported { s' with log } nodes edges := by
  obtain ⟨grows, revision, recorded, answer, back⟩ := h
  have hundo := s'.undo_withLog log
  exact ⟨grows, revision, recorded, hundo.1.trans answer, hundo.2.trans back⟩

theorem imported_of_plan {nodes edges : Nat}
    (h : Draft.plan s.preset s.document m = .ok (patch, d)) (hne : patch ≠ [])
    (grows : s.document.GrowsBy d nodes edges) : s.Imported (s.apply m).1 nodes edges := by
  let c : Commit := ⟨m.label, patch⟩
  have happly := apply_of_ne_nil h hne
  obtain ⟨kept, htake, hroom, hfull⟩ := take_limit_cons s.history.limit_pos c s.history.past
  have hundone := undo_of_apply h hne
  rw [happly] at hundone ⊢
  refine ⟨grows, rfl, ⟨c, kept, ?_, hroom, hfull⟩, hundone⟩
  simp only [advance, History.record, c, htake]

end Store

namespace Stix

variable {p : Preset} {d : Document} {o : Options} {c c' : Candidate} {v : ValidObject}
  {items accepted : List Item} {s : Store}

/-- An item that asks for a new node or a new edge. -/
def Item.Adds (item : Item) : Prop :=
  (∃ n, item.mutation = .addNode n) ∨ ∃ e, item.mutation = .addEdge e

theorem Item.Adds.single {item : Item} (adds : item.Adds) : item.mutation.isBatch = false := by
  rcases adds with ⟨n, hm⟩ | ⟨e, hm⟩ <;> rw [hm] <;> rfl

/-- All items of a candidate ask for something new. -/
def Candidate.Adds (c : Candidate) : Prop := ∀ item ∈ c.items, item.Adds

/-! Mapping asks for new elements only: first for nodes, which it then knows, and after them for
edges. -/

/-- The candidate asks for nodes only, and all of them are among those that are to be. -/
def NodeStage.Places (stage : NodeStage) : Prop :=
  ∀ item ∈ stage.candidate.items, ∃ n, item.mutation = .addNode n ∧ n.id ∈ stage.staged

/-- The candidate goes on from another one, and asks for some more edges. -/
def Candidate.Gains (c c' : Candidate) : Prop :=
  ∃ es, c'.items = c.items ++ es ∧ ∀ item ∈ es, ∃ e, item.mutation = .addEdge e

namespace Candidate.Gains

theorem of_items_eq (h : c'.items = c.items) : c.Gains c' := ⟨[], by simp [h]⟩

theorem refl (c : Candidate) : c.Gains c := of_items_eq rfl

theorem trans {c'' : Candidate} (h : c.Gains c') (h' : c'.Gains c'') : c.Gains c'' := by
  obtain ⟨es, hitems, hes⟩ := h
  obtain ⟨es', hitems', hes'⟩ := h'
  refine ⟨es ++ es', by rw [hitems', hitems, List.append_assoc], ?_⟩
  intro item hitem
  exact (List.mem_append.mp hitem).elim (hes item) (hes' item)

end Candidate.Gains

theorem stageNode_places {stage stage' : NodeStage} (h : stageNode p o d stage v = .ok stage')
    (hstage : stage.Places) : stage'.Places := by
  unfold stageNode at h
  simp only at h
  split at h
  · rw [pure_eq_ok, Except.ok.injEq] at h
    subst h
    exact hstage
  · split at h
    · rw [pure_eq_ok, Except.ok.injEq] at h
      subst h
      exact hstage
    · split at h
      · rw [pure_eq_ok, Except.ok.injEq] at h
        subst h
        exact hstage
      · obtain ⟨node, hnode, h⟩ := bind_eq_ok.mp h
        rw [pure_eq_ok, Except.ok.injEq] at h
        subst h
        obtain ⟨_, _, hnode⟩ := bind_eq_ok.mp hnode
        intro item hitem
        rcases List.mem_append.mp hitem with hold | hnew
        · obtain ⟨n, hm, hn⟩ := hstage item hold
          exact ⟨n, hm, List.mem_cons_of_mem _ hn⟩
        · rw [List.mem_singleton.mp hnew]
          exact ⟨node, rfl, Except.ok.inj hnode ▸ List.mem_cons_self⟩

theorem items_resolve (k : Known) (refs : List String) : (resolve k c v refs).1.items = c.items := by
  induction refs with
  | nil => rfl
  | cons ref rest ih =>
    rw [resolve]
    split
    · exact ih
    · split <;> rfl

theorem addEdge_gains (e : Edge) : c.Gains (addEdge d c v e) := by
  unfold addEdge
  split
  · exact .of_items_eq rfl
  · refine ⟨[⟨v.index, e.id, v.kind, .addEdge e⟩], rfl, ?_⟩
    intro item hitem
    exact ⟨e, List.mem_singleton.mp hitem ▸ rfl⟩

theorem foldl_gains {α : Type} {step : Candidate → α → Candidate}
    (gains : ∀ (c : Candidate) x, c.Gains (step c x)) (xs : List α) : c.Gains (xs.foldl step c) :=
  List.foldlRecOn xs step (.refl c) fun _ hc x _ => hc.trans (gains _ x)

theorem stageRelationship_gains (k : Known) : c.Gains (stageRelationship p o d k c v) := by
  unfold stageRelationship
  simp only
  split
  next => exact .of_items_eq rfl
  next typeId _ =>
    have hrefs := items_resolve (c := c) (v := v) k
      [textAt v.raw "source_ref", textAt v.raw "target_ref"]
    split
    next c' heq => exact .of_items_eq (by rwa [heq] at hrefs)
    next c' heq =>
      rw [heq] at hrefs
      exact (Candidate.Gains.of_items_eq hrefs).trans (addEdge_gains _)

theorem stageSighting_gains (k : Known) : c.Gains (stageSighting p o d k c v) := by
  unfold stageSighting
  simp only
  split
  next => exact .of_items_eq rfl
  next =>
    split
    next => exact .of_items_eq rfl
    next =>
      have hrefs := items_resolve (c := c) (v := v) k
        (textAt v.raw "sighting_of_ref" :: textsAt v.raw "where_sighted_refs")
      split
      next c' heq => exact .of_items_eq (by rwa [heq] at hrefs)
      next c' heq =>
        rw [heq] at hrefs
        refine (Candidate.Gains.of_items_eq hrefs).trans (foldl_gains ?_ _)
        exact fun c place => addEdge_gains _

theorem stageConnection_gains (k : Known) : c.Gains (stageConnection p o d k c v) := by
  unfold stageConnection
  have hcount : c.Gains (c.count v.kind.word) := .of_items_eq rfl
  simp only
  split
  · exact .of_items_eq rfl
  · split
    · exact hcount.trans (stageRelationship_gains k)
    · exact hcount.trans (stageSighting_gains k)

/-- The items of a mapping are those of the nodes and then those of the edges. -/
theorem mapToGraph_split {valid : List ValidObject} (h : mapToGraph p o d valid = .ok c) :
    ∃ stage es, (valid.filter fun v => !v.kind.connects).foldlM (stageNode p o d)
        { slot := d.nodes.size } = .ok stage ∧ stage.Places ∧
      c.items = stage.candidate.items ++ es ∧ ∀ item ∈ es, ∃ e, item.mutation = .addEdge e := by
  obtain ⟨stage, hstage, hc⟩ := bind_eq_ok.mp h
  obtain rfl := Except.ok.inj hc
  have hplaces : stage.Places :=
    foldlM_induct stageNode_places hstage fun item hitem => nomatch hitem
  obtain ⟨es, hitems, hes⟩ := foldl_gains (c := stage.candidate)
    (fun c v => stageConnection_gains (p := p) (o := o) (d := d) (v := v)
      { nodes := stage.staged ++ d.nodes.keys, filtered := stage.filtered })
    (valid.filter fun v => v.kind.connects)
  exact ⟨stage, es, hstage, hplaces, hitems, hes⟩

theorem mapToGraph_adds {valid : List ValidObject} (h : mapToGraph p o d valid = .ok c) :
    c.Adds := by
  obtain ⟨stage, es, _, hplaces, hitems, hes⟩ := mapToGraph_split h
  intro item hitem
  rw [hitems] at hitem
  rcases List.mem_append.mp hitem with hnode | hedge
  · obtain ⟨n, hm, _⟩ := hplaces item hnode
    exact .inl ⟨n, hm⟩
  · exact .inr (hes item hedge)

/-! What staging accepts, a batch of it accepts as well. -/

/-- Items are staged one after another on a draft: those that are accepted are carried out, and those
that are refused leave the draft as it was. -/
inductive Staged (p : Preset) : Draft → List Item → List Item → Draft → Prop
  | done {draft : Draft} : Staged p draft [] [] draft
  | accept {draft mid draft' : Draft} {item : Item} {rest accepted : List Item}
      (performed : Draft.perform p draft item.mutation = (mid, none))
      (others : Staged p mid rest accepted draft') :
      Staged p draft (item :: rest) (item :: accepted) draft'
  | refuse {draft draft' : Draft} {item : Item} {rest accepted : List Item} {r : Rejection}
      (refused : Draft.stage p draft item.mutation = (draft, some (.rejected r)))
      (others : Staged p draft rest accepted draft') : Staged p draft (item :: rest) accepted draft'

theorem staged_of_stageItems {draft : Draft} (h : stageItems p draft c items = .ok (c', accepted)) :
    ∃ draft', Staged p draft items accepted draft' := by
  induction items generalizing draft c c' accepted with
  | nil =>
    rw [stageItems, Except.ok.injEq, Prod.mk.injEq] at h
    exact ⟨draft, h.2 ▸ .done⟩
  | cons item rest ih =>
    have hcases := Draft.stage_cases (p := p) draft item.mutation
    rw [stageItems] at h
    split at h
    next mid hstage =>
      -- an item that was staged was carried out, and the rest goes on from there
      have hperform : Draft.perform p draft item.mutation = (mid, none) := by
        rcases hcases with ⟨r, _, hs⟩ | ⟨_, hs⟩
        · simp [hs] at hstage
        · rw [← hs, hstage]
      cases hrest : stageItems p mid c rest with
      | error f => simp [hrest, Except.map] at h
      | ok result =>
        obtain ⟨c₁, accepted₁⟩ := result
        simp only [hrest, Except.map, Except.ok.injEq, Prod.mk.injEq] at h
        obtain ⟨draft', hstaged⟩ := ih hrest
        exact ⟨draft', h.2 ▸ .accept hperform hstaged⟩
    next mid r hstage =>
      have hsame : mid = draft := by
        rcases hcases with ⟨r', _, hs⟩ | ⟨hne, hs⟩
        · exact (congrArg Prod.fst (hstage.symm.trans hs))
        · exact absurd (by rw [← hs, hstage]) (hne r)
      rw [hsame] at h hstage
      obtain ⟨draft', hstaged⟩ := ih h
      exact ⟨draft', .refuse hstage hstaged⟩
    next => simp at h

theorem Staged.sublist {draft draft' : Draft} (h : Staged p draft items accepted draft') :
    accepted.Sublist items := by
  induction h with
  | done => exact .refl _
  | accept _ _ ih => exact ih.cons_cons _
  | refuse _ _ ih => exact ih.cons _

theorem Staged.performAll_eq {draft draft' : Draft} (h : Staged p draft items accepted draft') :
    Draft.performAll p draft (accepted.map Item.mutation) = (draft', none) := by
  induction h with
  | done => rw [List.map_nil, Draft.performAll]
  | accept performed _ ih =>
    rw [List.map_cons, Draft.performAll, performed]
    exact ih
  | refuse _ _ ih => exact ih

/-- The accepted items are some of all, and carrying out them alone is not stopped: a refused item
leaves the draft as it was before. -/
theorem stageItems_accepted {draft : Draft} (h : stageItems p draft c items = .ok (c', accepted)) :
    accepted.Sublist items ∧
      ∃ draft', Draft.performAll p draft (accepted.map Item.mutation) = (draft', none) := by
  obtain ⟨draft', hstaged⟩ := staged_of_stageItems h
  exact ⟨hstaged.sublist, draft', hstaged.performAll_eq⟩

/-- Carrying out an item that adds something puts one node or one edge behind the others. -/
theorem perform_grows {draft mid : Draft} {item : Item} (adds : item.Adds)
    (h : Draft.perform p draft item.mutation = (mid, none)) :
    draft.working.GrowsBy mid.working (if isNodeItem item then 1 else 0)
      (if isEdgeItem item then 1 else 0) := by
  have heffect := (Draft.accepted_of_perform adds.single h).effect
  rcases adds with ⟨n, hm⟩ | ⟨e, hm⟩
  · rw [hm] at heffect
    simpa [isNodeItem, isEdgeItem, hm] using heffect.grows_addNode
  · rw [hm] at heffect
    simpa [isNodeItem, isEdgeItem, hm] using heffect.grows_addEdge

theorem performAll_grows {draft draft' : Draft} (adds : ∀ item ∈ accepted, item.Adds)
    (h : Draft.performAll p draft (accepted.map Item.mutation) = (draft', none)) :
    draft.working.GrowsBy draft'.working (accepted.countP isNodeItem)
      (accepted.countP isEdgeItem) := by
  induction accepted generalizing draft with
  | nil =>
    rw [List.map_nil, Draft.performAll, Prod.mk.injEq] at h
    rw [← h.1]
    exact .refl _
  | cons item rest ih =>
    obtain ⟨hitem, hrest⟩ := List.forall_mem_cons.mp adds
    rw [List.map_cons, Draft.performAll] at h
    split at h
    next mid hperform =>
      have hstep := perform_grows hitem hperform
      have hgrows := hstep.trans (ih hrest h)
      rw [List.countP_cons, List.countP_cons, Nat.add_comm (rest.countP isNodeItem),
        Nat.add_comm (rest.countP isEdgeItem)]
      exact hgrows
    next => simp at h

theorem countP_eq_zero_iff (adds : ∀ item ∈ accepted, item.Adds) :
    accepted.countP isNodeItem + accepted.countP isEdgeItem = 0 ↔ accepted = [] := by
  constructor
  · intro h
    have hnodes : accepted.countP isNodeItem = 0 := by omega
    have hedges : accepted.countP isEdgeItem = 0 := by omega
    rw [List.countP_eq_zero] at hnodes hedges
    apply List.eq_nil_iff_forall_not_mem.mpr
    intro item hitem
    -- an item adds a node or an edge, and is counted either way
    rcases adds item hitem with ⟨n, hm⟩ | ⟨e, hm⟩
    · exact hnodes item hitem (by simp [isNodeItem, hm])
    · exact hedges item hitem (by simp [isEdgeItem, hm])
  · intro h
    rw [h]
    rfl

/-- A batch of the items that staging accepted is planned without a stop, and leads to what staging
came to. -/
theorem Staged.plan_eq {d : Document} {draft' : Draft}
    (h : Staged p (Draft.start d) items accepted draft') :
    ∃ patch, Draft.plan p d (.batch (some importLabel) (accepted.map Item.mutation)) =
      .ok (patch, draft'.working) := by
  let m : Mutation := .batch (some importLabel) (accepted.map Item.mutation)
  have hperform : Draft.perform p (Draft.start d) m = (draft', none) := by
    rw [Draft.perform]
    exact h.performAll_eq
  have hstage : Draft.stage p (Draft.start d) m = (draft', none) := by
    rcases Draft.stage_cases (p := p) (Draft.start d) m with ⟨r, hr, _⟩ | ⟨_, hs⟩
    · simp [hperform] at hr
    · rw [hs, hperform]
  have hplan : Draft.plan p d m = .ok (draft'.patch, draft'.result) := by
    rw [Draft.plan, hstage]
  have hresult : draft'.result = draft'.working := by
    obtain ⟨changes, hext⟩ := Draft.exists_extends_perform (p := p) (Draft.start d) m
    rw [hperform] at hext
    exact ((Draft.recorded_start d).extends hext).result_eq
  exact ⟨draft'.patch, hresult ▸ hplan⟩

theorem plan_accepted {d : Document} (adds : c.Adds) (h : stage p d c = .ok (c', accepted)) :
    ∃ patch d', Draft.plan p d (.batch (some importLabel) (accepted.map Item.mutation)) =
        .ok (patch, d') ∧
      d.GrowsBy d' (accepted.countP isNodeItem) (accepted.countP isEdgeItem) := by
  obtain ⟨draft', hstaged⟩ := staged_of_stageItems h
  obtain ⟨patch, hplan⟩ := hstaged.plan_eq
  refine ⟨patch, draft'.working, hplan, ?_⟩
  exact performAll_grows (fun item hitem => adds item (hstaged.sublist.subset hitem))
    hstaged.performAll_eq

/-- Committing what staging accepted never fails. It does nothing when nothing was accepted, and
else it is one commit that grows the document by the accepted elements. -/
theorem commit_accepted (adds : c.Adds)
    (h : stage s.preset s.document c = .ok (c', accepted)) :
    (commit s accepted).2 = .ok () ∧
      (accepted = [] → (commit s accepted).1 = s) ∧
      (accepted ≠ [] → s.Imported (commit s accepted).1 (accepted.countP isNodeItem)
        (accepted.countP isEdgeItem)) := by
  obtain ⟨patch, d', hplan, hgrows⟩ := plan_accepted adds h
  by_cases hempty : accepted = []
  · subst hempty
    exact ⟨rfl, fun _ => rfl, fun hne => absurd rfl hne⟩
  · have haccepted : ∀ item ∈ accepted, item.Adds := by
      intro item hitem
      exact adds item ((stageItems_accepted h).1.subset hitem)
    -- a patch without changes would leave the document as it is, but something was added
    have hne : patch ≠ [] := by
      rintro rfl
      obtain rfl := (Draft.trail_of_plan hplan).eq_of_nil
      obtain ⟨hnodes, hedges⟩ := hgrows.eq_zero_of_self
      exact hempty ((countP_eq_zero_iff haccepted).mp (by omega))
    let m : Mutation := .batch (some importLabel) (accepted.map Item.mutation)
    have hcommit : commit s accepted = ((s.apply m).1, .ok ()) := by
      have hisEmpty : accepted.isEmpty = false := by simpa using hempty
      rw [commit, hisEmpty, Store.apply_of_ne_nil hplan hne]
      rfl
    rw [hcommit]
    exact ⟨rfl, fun hnil => absurd hnil hempty, fun _ => Store.imported_of_plan hplan hne hgrows⟩

/-- What is prepared for a commit was read, mapped and then staged on the document of the store. -/
theorem prepare_eq_ok_iff {origin : Bundle.Origin} {b : Bundle} {report : ValidationReport} :
    prepare s o origin = .ok (b, report, c', accepted) ↔
      Bundle.read origin = .ok (.ok b) ∧ report = validate b ∧
        ∃ mapped, mapToGraph s.preset o s.document (validate b).valid = .ok mapped ∧
          stage s.preset s.document mapped = .ok (c', accepted) := by
  unfold prepare
  simp only [bind_eq_ok, mapError_eq_ok, pure_eq_ok, Except.ok.injEq, Prod.mk.injEq]
  constructor
  · rintro ⟨_, hread, _, hbundle, mapped, hmapped, ⟨_, _⟩, hstage, rfl, rfl, rfl, rfl⟩
    exact ⟨hbundle ▸ hread, rfl, mapped, hmapped, hstage⟩
  · rintro ⟨hread, rfl, mapped, hmapped, hstage⟩
    exact ⟨_, hread, b, rfl, mapped, hmapped, (c', accepted), hstage, rfl, rfl, rfl, rfl⟩

theorem staged_of_prepare {origin : Bundle.Origin} {b : Bundle} {report : ValidationReport}
    (h : prepare s o origin = .ok (b, report, c', accepted)) :
    ∃ mapped : Candidate, mapped.Adds ∧
      stage s.preset s.document mapped = .ok (c', accepted) := by
  obtain ⟨_, _, mapped, hmapped, hstage⟩ := prepare_eq_ok_iff.mp h
  exact ⟨mapped, mapToGraph_adds hmapped, hstage⟩

section Run

variable {origin : Bundle.Origin} {b : Bundle} {report : ValidationReport}

theorem importInto_of_error {e : ImportError} {cancelled : Bool}
    (h : prepare s o origin = .error e) : importInto s o origin cancelled = (s, .error e) := by
  simp only [importInto, h]

theorem importInto_of_cancelled (h : prepare s o origin = .ok (b, report, c, accepted)) :
    importInto s o origin true = (s, .error .cancelled) := by
  simp only [importInto, h, if_true]

theorem importInto_of_stop {stop : Stop} (h : prepare s o origin = .ok (b, report, c, accepted))
    (stops : (commit s accepted).2 = .error stop) :
    importInto s o origin false = ((commit s accepted).1, .error (.stop stop)) := by
  cases hcommit : commit s accepted with
  | mk s' outcome =>
    rw [hcommit] at stops
    simp only at stops
    simp only [importInto, h, Bool.false_eq_true, if_false, hcommit, stops]

theorem importInto_of_commit (h : prepare s o origin = .ok (b, report, c, accepted))
    (commits : (commit s accepted).2 = .ok ()) :
    importInto s o origin false =
      (announce (commit s accepted).1 (summarize b report c accepted),
        .ok (summarize b report c accepted)) := by
  cases hcommit : commit s accepted with
  | mk s' outcome =>
    rw [hcommit] at commits
    simp only at commits
    simp only [importInto, h, Bool.false_eq_true, if_false, hcommit, commits]

/-- The summary counts what was accepted, so it counts nothing when nothing was. -/
theorem created_eq_zero_iff (adds : ∀ item ∈ accepted, item.Adds) :
    (summarize b report c accepted).nodesCreated + (summarize b report c accepted).edgesCreated = 0 ↔
      accepted = [] :=
  countP_eq_zero_iff adds

end Run

/-- An import either fails and leaves the store as it is, or creates nothing and leaves everything
but the log as it is, or is one more commit. That commit puts as many nodes and edges behind the old
ones as the summary says, forgets the oldest commit only when there is no room for another one, and
is taken back by one step to the very document that was there before. What staging accepted is never
refused when it is committed. -/
theorem importInto_additive (s : Store) (o : Options) (origin : Bundle.Origin) (cancelled : Bool) :
    let after := importInto s o origin cancelled
    (∀ e, after.2 = .error e → after.1 = s) ∧
    (∀ summary, after.2 = .ok summary →
      if summary.nodesCreated + summary.edgesCreated = 0 then ∃ log, after.1 = { s with log }
      else s.Imported after.1 summary.nodesCreated summary.edgesCreated) ∧
    ∀ b report c accepted, prepare s o origin = .ok (b, report, c, accepted) →
      (commit s accepted).2 = .ok () := by
  intro after
  cases hprepare : prepare s o origin with
  | error e =>
    have hafter : after = (s, .error e) := importInto_of_error hprepare
    rw [hafter]
    exact ⟨fun _ _ => rfl, fun _ h => (nomatch h), fun _ _ _ _ h => (nomatch h)⟩
  | ok prepared =>
    obtain ⟨b, report, c, accepted⟩ := prepared
    obtain ⟨mapped, hadds, hstage⟩ := staged_of_prepare hprepare
    obtain ⟨hnever, hnothing, hsomething⟩ := commit_accepted hadds hstage
    have hcommits : ∀ b' report' c' accepted',
        (.ok (b, report, c, accepted) : Except ImportError _) = .ok (b', report', c', accepted') →
        (commit s accepted').2 = .ok () := by
      intro b' report' c' accepted' h
      simp only [Except.ok.injEq, Prod.mk.injEq] at h
      rw [← h.2.2.2]
      exact hnever
    cases cancelled with
    | true =>
      have hafter : after = (s, .error .cancelled) := importInto_of_cancelled hprepare
      rw [hafter]
      exact ⟨fun _ _ => rfl, fun _ h => (nomatch h), hcommits⟩
    | false =>
      have hafter : after = (announce (commit s accepted).1 (summarize b report c accepted),
          .ok (summarize b report c accepted)) := importInto_of_commit hprepare hnever
      have haccepted : ∀ item ∈ accepted, item.Adds := by
        intro item hitem
        exact hadds item ((stageItems_accepted hstage).1.subset hitem)
      rw [hafter]
      refine ⟨fun _ h => (nomatch h), ?_, hcommits⟩
      intro summary h
      obtain rfl : summarize b report c accepted = summary := Except.ok.inj h
      -- what the summary counts tells whether there was anything to commit
      split
      next hzero =>
        rw [hnothing ((created_eq_zero_iff haccepted).mp hzero)]
        exact ⟨_, rfl⟩
      next hpos =>
        have hne : accepted ≠ [] := fun hnil => hpos ((created_eq_zero_iff haccepted).mpr hnil)
        exact (hsomething hne).withLog _

/-- Of two relationships between the same nodes only the first is accepted, and an entry that is no
object is passed over; the rest is committed, and taken back in one step. -/
theorem importInto_additive_partly :
    let n : NodeType := { id := "host", name := "Host", style := { color := "#000000" } }
    let r : Relationship :=
      { id := "link", name := "Link", sourceTypes := ["host"], targetTypes := ["host"],
        multiplicity := .oneToOne }
    let p : Preset :=
      { id := "net", name := "Net", version := "2.0.0", nodeTypes := [n], relationships := [r] }
    let history : History := { limit := 1, limit_pos := by decide }
    let s : Store := { preset := p, document := .blank p, history, log := { limit := 5 } }
    let o : Options := { typeOf := [("identity", "host")], relationshipOf := [("uses", "link")] }
    let times : List (String × Json) :=
      [("created", .str "2020-01-01T00:00:00Z"), ("modified", .str "2020-01-01T00:00:00Z")]
    let identity (id : String) : Json :=
      .obj ([("type", .str "identity"), ("id", .str id), ("name", .str id)] ++ times)
    let uses (id : String) : Json :=
      .obj ([("type", .str "relationship"), ("id", .str id), ("relationship_type", .str "uses"),
        ("source_ref", .str "identity--a"), ("target_ref", .str "identity--b")] ++ times)
    let bundle : Json := .obj [("objects", .arr [identity "identity--a", identity "identity--b",
      uses "relationship--a", uses "relationship--b", .null])]
    let after := importInto s o (.value bundle) false
    ∃ summary, after.2 = .ok summary ∧ summary.objectsRead = 5 ∧ summary.nodesCreated = 2 ∧
      summary.edgesCreated = 1 ∧ s.Imported after.1 2 1 := by
  intro n r p history s o times identity uses bundle after
  have hcounts : after.2.toOption.map (fun t => (t.objectsRead, t.nodesCreated, t.edgesCreated)) =
      some (5, 2, 1) := by decide +kernel
  obtain ⟨summary, hsome, hvalues⟩ := Option.map_eq_some_iff.mp hcounts
  simp only [Prod.mk.injEq] at hvalues
  obtain ⟨hread, hnodes, hedges⟩ := hvalues
  have hok : after.2 = .ok summary := eq_ok_of_toOption hsome
  have himported := (importInto_additive s o (.value bundle) false).2.1 summary hok
  rw [hnodes, hedges] at himported
  exact ⟨summary, hok, hread, hnodes, hedges, himported⟩

end Stix

end GraphWorkbench

import GraphWorkbench.Proofs.Stix.Import
/-!
Mapping of which nothing is told. What an object then asks for is the same whatever stands beside it
in the bundle, and the same on every document that stands no more in its way.
-/
namespace GraphWorkbench

open Outcome

namespace Stix

variable {p : Preset} {o : Options} {d d' : Document} {k k' : Known} {c c' : Candidate}
  {v : ValidObject} {vs : List ValidObject}

/-- Nothing has been told yet. -/
structure Candidate.Quiet (c : Candidate) : Prop where
  issues : c.issues = []
  warnings : c.warnings = []

/-- What an object comes to when nothing is told of it: it is counted, and asks for some items or is
left out. -/
structure Intake where
  type : String
  items : List Item := []
  left : Nat := 0

def Candidate.plus (c : Candidate) (t : Intake) : Candidate :=
  { c.count t.type with items := c.items ++ t.items, skipped := c.skipped + t.left }

/-- All that is asked for. -/
def Intake.allItems (ts : List Intake) : List Item := ts.flatMap Intake.items

def Intake.allLeft (ts : List Intake) : Nat := ts.foldr (fun t n => t.left + n) 0

/-- A document and the nodes known beside it that stand in the way of no edge that goes through for
other ones. -/
structure Clears (d : Document) (k : Known) (d' : Document) (k' : Known) : Prop where
  edges : ∀ key, d'.edges.has key = true → d.edges.has key = true
  nodes : ∀ ref ∈ k.nodes, ref ∈ k'.nodes

theorem Clears.refl (d : Document) (k : Known) : Clears d k d k := ⟨fun _ h => h, fun _ h => h⟩

theorem Clears.fresh (h : Clears d k d' k') {key : String} (fresh : d.edges.has key = false) :
    d'.edges.has key = false := by
  rw [← Bool.not_eq_true] at fresh ⊢
  exact fun there => fresh (h.edges key there)

section Connections

theorem not_quiet_complain {cause : IssueCause} : ¬ (c.complain v cause).Quiet := by
  intro h
  simpa [Candidate.complain] using h.issues

theorem not_quiet_warn {cause : WarningCause} : ¬ (c.warn v cause).Quiet := by
  intro h
  simpa [Candidate.warn] using h.warnings

theorem addEdge_quiet {e : Edge} (h : (addEdge d c v e).Quiet) :
    c.Quiet ∧ d.edges.has e.id = false := by
  unfold addEdge at h
  split at h
  next => exact absurd h not_quiet_warn
  next fresh => exact ⟨⟨h.issues, h.warnings⟩, by simpa using fresh⟩

theorem addEdge_of_fresh {e : Edge} (fresh : d.edges.has e.id = false) :
    addEdge d c v e = c.add ⟨v.index, e.id, v.kind, .addEdge e⟩ := by
  rw [addEdge, fresh]
  rfl

theorem resolve_of_known {refs : List String} (known : ∀ ref ∈ refs, ref ∈ k.nodes) :
    resolve k c v refs = (c, true) := by
  induction refs with
  | nil => rfl
  | cons ref rest ih =>
    obtain ⟨hknown, hrest⟩ := List.forall_mem_cons.mp known
    rw [resolve, if_pos (List.contains_iff_mem.mpr hknown), ih hrest]

theorem known_of_resolve {refs : List String} (quiet : (resolve k c v refs).1.Quiet) :
    ∀ ref ∈ refs, ref ∈ k.nodes := by
  induction refs with
  | nil => exact nofun
  | cons ref rest ih =>
    rw [resolve] at quiet
    split at quiet
    next hknown =>
      exact List.forall_mem_cons.mpr ⟨List.contains_iff_mem.mp hknown, ih quiet⟩
    next =>
      split at quiet
      · exact absurd quiet not_quiet_warn
      · exact absurd quiet not_quiet_complain

/-- What follows a look-up of references is done only when all of them are known. -/
theorem resolved_quiet {refs : List String} {step : Candidate → Candidate}
    (quiet : Candidate.Quiet
      (match resolve k c v refs with | (c, false) => c | (c, true) => step c))
    (keeps : ∀ {c : Candidate}, (step c).Quiet → c.Quiet) :
    (∀ ref ∈ refs, ref ∈ k.nodes) ∧ (step c).Quiet := by
  have hquiet : (resolve k c v refs).1.Quiet := by
    split at quiet
    next heq => exact heq ▸ quiet
    next heq => exact heq ▸ keeps quiet
  have hknown := known_of_resolve hquiet
  rw [resolve_of_known hknown] at quiet
  exact ⟨hknown, quiet⟩

theorem stageRelationship_quiet (h : (stageRelationship p o d k c v).Quiet) :
    c.Quiet ∧ ∃ items, ∀ {d' k'} (c' : Candidate), Clears d k d' k' →
      stageRelationship p o d' k' c' v = { c' with items := c'.items ++ items } := by
  unfold stageRelationship at h ⊢
  simp only at h ⊢
  split at h
  next => exact absurd h not_quiet_complain
  next typeId _ =>
    let edge : Edge :=
      { id := v.id, typeId, source := textAt v.raw "source_ref", target := textAt v.raw "target_ref"
        properties := .ofEntries [("stixType", .str (textAt v.raw "relationship_type")),
          ("stix", without relationshipFields v.raw)] }
    obtain ⟨hknown, hedge⟩ := resolved_quiet h fun h => (addEdge_quiet h).1
    obtain ⟨hquiet, hfresh⟩ := addEdge_quiet hedge
    refine ⟨hquiet, [⟨v.index, v.id, v.kind, .addEdge edge⟩], fun c' clears => ?_⟩
    simp only [resolve_of_known fun ref href => clears.nodes ref (hknown ref href)]
    exact addEdge_of_fresh (clears.fresh hfresh)

/-- The edges of a sighting go in one by one. -/
theorem foldl_addEdge_quiet (edge : String × Nat → Edge) (places : List (String × Nat))
    (h : (places.foldl (fun c place => addEdge d c v (edge place)) c).Quiet) :
    c.Quiet ∧ ∀ place ∈ places, d.edges.has (edge place).id = false := by
  induction places generalizing c with
  | nil => exact ⟨h, nofun⟩
  | cons place rest ih =>
    obtain ⟨hplace, hrest⟩ := ih h
    obtain ⟨hquiet, hfresh⟩ := addEdge_quiet hplace
    exact ⟨hquiet, List.forall_mem_cons.mpr ⟨hfresh, hrest⟩⟩

theorem foldl_addEdge_of_fresh (edge : String × Nat → Edge) (places : List (String × Nat))
    (fresh : ∀ place ∈ places, d.edges.has (edge place).id = false) (c : Candidate) :
    places.foldl (fun c place => addEdge d c v (edge place)) c =
      { c with items := c.items ++ places.map fun place =>
          ⟨v.index, (edge place).id, v.kind, .addEdge (edge place)⟩ } := by
  induction places generalizing c with
  | nil => simp
  | cons place rest ih =>
    obtain ⟨hfresh, hrest⟩ := List.forall_mem_cons.mp fresh
    rw [List.foldl_cons, addEdge_of_fresh hfresh, ih hrest]
    simp [Candidate.add]

theorem stageSighting_quiet (h : (stageSighting p o d k c v).Quiet) :
    c.Quiet ∧ ∃ items, ∀ {d' k'} (c' : Candidate), Clears d k d' k' →
      stageSighting p o d' k' c' v = { c' with items := c'.items ++ items } := by
  unfold stageSighting at h ⊢
  simp only at h ⊢
  split at h
  next => exact absurd h not_quiet_complain
  next hrelationship =>
    split at h
    next => exact absurd h not_quiet_warn
    next hplaces =>
      let edge (place : String × Nat) : Edge :=
        { id := if (textsAt v.raw "where_sighted_refs").length = 1 then v.id
                else s!"{v.id}#{place.2}"
          typeId := o.sightingRelationship, source := textAt v.raw "sighting_of_ref"
          target := place.1, properties := sightingProperties v }
      obtain ⟨hknown, hedges⟩ := resolved_quiet h fun h => (foldl_addEdge_quiet edge _ h).1
      obtain ⟨hquiet, hfresh⟩ := foldl_addEdge_quiet edge _ hedges
      refine ⟨hquiet, (textsAt v.raw "where_sighted_refs").zipIdx.map fun place =>
        ⟨v.index, (edge place).id, v.kind, .addEdge (edge place)⟩, fun c' clears => ?_⟩
      rw [if_neg hrelationship, if_neg hplaces]
      simp only [resolve_of_known fun ref href => clears.nodes ref (hknown ref href)]
      exact foldl_addEdge_of_fresh edge _ (fun place hplace => clears.fresh (hfresh place hplace)) c'

theorem stageConnection_quiet (h : (stageConnection p o d k c v).Quiet) :
    c.Quiet ∧ ∃ t, ∀ {d' k'} (c' : Candidate), Clears d k d' k' →
      stageConnection p o d' k' c' v = c'.plus t := by
  have hcount : (c.count v.kind.word).Quiet → c.Quiet := fun h => ⟨h.issues, h.warnings⟩
  unfold stageConnection at h ⊢
  simp only at h ⊢
  split at h
  next hleft =>
    refine ⟨⟨h.issues, h.warnings⟩, { type := v.kind.word, left := 1 }, fun c' _ => ?_⟩
    rw [if_pos hleft]
    simp [Candidate.plus, Candidate.skip, Candidate.count]
  next hkept =>
    split at h
    next hkind =>
      obtain ⟨hquiet, items, hitems⟩ := stageRelationship_quiet h
      refine ⟨hcount hquiet, { type := v.kind.word, items }, fun c' clears => ?_⟩
      rw [if_neg hkept, if_pos hkind, hitems _ clears]
      rfl
    next hkind =>
      obtain ⟨hquiet, items, hitems⟩ := stageSighting_quiet h
      refine ⟨hcount hquiet, { type := v.kind.word, items }, fun c' clears => ?_⟩
      rw [if_neg hkept, if_neg hkind, hitems _ clears]
      rfl

theorem stageConnections_quiet (h : (vs.foldl (stageConnection p o d k) c).Quiet) :
    c.Quiet ∧ ∃ ts : List Intake, ∀ {d' k'} (c' : Candidate), Clears d k d' k' →
      vs.foldl (stageConnection p o d' k') c' = ts.foldl Candidate.plus c' := by
  induction vs generalizing c with
  | nil => exact ⟨h, [], fun _ _ => rfl⟩
  | cons v rest ih =>
    obtain ⟨hv, ts, hts⟩ := ih h
    obtain ⟨hquiet, t, ht⟩ := stageConnection_quiet hv
    refine ⟨hquiet, t :: ts, fun c' clears => ?_⟩
    rw [List.foldl_cons, ht c' clears, hts _ clears, List.foldl_cons]

end Connections

/-- A stage after things of which nothing was told. -/
def NodeStage.plus (s : NodeStage) (ts : List Intake) (staged filtered : List String) : NodeStage :=
  { candidate := ts.foldl Candidate.plus s.candidate, staged := staged ++ s.staged
    filtered := filtered ++ s.filtered, slot := s.slot + (Intake.allItems ts).length }

section Things

variable {s s' : NodeStage}

theorem NodeStage.plus_plus (ts ts' : List Intake) (staged staged' filtered filtered' : List String) :
    (s.plus ts staged filtered).plus ts' staged' filtered' =
      s.plus (ts ++ ts') (staged' ++ staged) (filtered' ++ filtered) := by
  simp [plus, Intake.allItems, Nat.add_assoc]

theorem stageNode_quiet (h : stageNode p o d s v = .ok s') (quiet : s'.candidate.Quiet) :
    s.candidate.Quiet ∧ ∃ t staged filtered, ∀ {d'} (other : NodeStage),
      (∀ key, d'.nodes.has key = true → d.nodes.has key = true) → other.slot = s.slot →
        stageNode p o d' other v = .ok (other.plus [t] staged filtered) := by
  unfold stageNode at h ⊢
  simp only at h ⊢
  split at h
  next hrefuses =>
    obtain rfl := Except.ok.inj h
    refine ⟨⟨quiet.issues, quiet.warnings⟩, { type := v.kind.word, left := 1 }, [], [v.id],
      fun other _ _ => ?_⟩
    rw [if_pos hrefuses]
    simp [NodeStage.plus, Candidate.plus, Candidate.skip, Candidate.count, Intake.allItems, pure_eq_ok]
  next haccepts =>
    split at h
    next =>
      obtain rfl := Except.ok.inj h
      exact absurd quiet not_quiet_complain
    next typeId htype =>
      split at h
      next =>
        obtain rfl := Except.ok.inj h
        exact absurd quiet not_quiet_warn
      next hfresh =>
        obtain ⟨node, hnode, h⟩ := bind_eq_ok.mp h
        obtain rfl := Except.ok.inj h
        refine ⟨⟨quiet.issues, quiet.warnings⟩,
          { type := v.kind.word, items := [⟨v.index, v.id, v.kind, .addNode node⟩] }, [v.id], [],
          fun other within slot => ?_⟩
        rw [if_neg haccepts, if_neg fun there => hfresh (within v.id there), slot, hnode]
        simp [NodeStage.plus, Candidate.plus, Candidate.add, Candidate.count, Intake.allItems,
          pure_eq_ok, ok_bind, slot]

theorem stageNodes_quiet (h : vs.foldlM (stageNode p o d) s = .ok s') (quiet : s'.candidate.Quiet) :
    s.candidate.Quiet ∧ ∃ ts staged filtered, ∀ {d'} (other : NodeStage),
      (∀ key, d'.nodes.has key = true → d.nodes.has key = true) → other.slot = s.slot →
        vs.foldlM (stageNode p o d') other = .ok (other.plus ts staged filtered) := by
  induction vs generalizing s with
  | nil =>
    obtain rfl := Except.ok.inj h
    exact ⟨quiet, [], [], [], fun _ _ _ => rfl⟩
  | cons v rest ih =>
    rw [List.foldlM_cons] at h
    obtain ⟨mid, hv, hrest⟩ := bind_eq_ok.mp h
    obtain ⟨hmid, ts, staged, filtered, hts⟩ := ih hrest
    obtain ⟨hquiet, t, staged₁, filtered₁, ht⟩ := stageNode_quiet hv hmid
    refine ⟨hquiet, t :: ts, staged ++ staged₁, filtered ++ filtered₁, fun other within slot => ?_⟩
    -- the slots go on alike from stages of the same slot
    have hslot : (other.plus [t] staged₁ filtered₁).slot = mid.slot := by
      have hown := ht s (fun _ h => h) rfl
      obtain rfl := Except.ok.inj (hv.symm.trans hown)
      simp only [NodeStage.plus, slot]
    rw [List.foldlM_cons, ht other within slot, ok_bind, hts _ within hslot, NodeStage.plus_plus]
    rfl

end Things

/-- What a mapping of some objects asks for when nothing is told of them. -/
structure Plan where
  nodes : List Intake
  edges : List Intake
  staged : List String
  filtered : List String

/-- The candidate of a plan. -/
def Plan.candidate (plan : Plan) : Candidate := (plan.nodes ++ plan.edges).foldl Candidate.plus {}

/-- A plan that says of some objects what they come to on a document, and on any other one that
stands no more in the way of them. -/
structure Plan.Fits (plan : Plan) (p : Preset) (o : Options) (d : Document)
    (valid : List ValidObject) : Prop where
  nodes : ∀ {d'} (s : NodeStage), (∀ key, d'.nodes.has key = true → d.nodes.has key = true) →
    s.slot = d.nodes.size → (valid.filter fun v => !v.kind.connects).foldlM (stageNode p o d') s =
      .ok (s.plus plan.nodes plan.staged plan.filtered)
  edges : ∀ {d' k'} (c : Candidate),
    Clears d { nodes := plan.staged ++ d.nodes.keys, filtered := plan.filtered } d' k' →
      (valid.filter fun v => v.kind.connects).foldl (stageConnection p o d' k') c =
        plan.edges.foldl Candidate.plus c
  nodeItems : ∀ item ∈ Intake.allItems plan.nodes, ∃ n, item.mutation = .addNode n ∧ n.id ∈ plan.staged
  edgeItems : ∀ item ∈ Intake.allItems plan.edges, ∃ e, item.mutation = .addEdge e

section Plans

theorem items_foldl_plus (ts : List Intake) (c : Candidate) :
    (ts.foldl Candidate.plus c).items = c.items ++ Intake.allItems ts := by
  induction ts generalizing c with
  | nil => simp [Intake.allItems]
  | cons t rest ih => simp [ih, Candidate.plus, Intake.allItems]

theorem skipped_foldl_plus (ts : List Intake) (c : Candidate) :
    (ts.foldl Candidate.plus c).skipped = c.skipped + Intake.allLeft ts := by
  induction ts generalizing c with
  | nil => rfl
  | cons t rest ih => simp [ih, Candidate.plus, Intake.allLeft, Nat.add_assoc]

theorem quiet_foldl_plus {ts : List Intake} (quiet : c.Quiet) :
    (ts.foldl Candidate.plus c).Quiet := by
  induction ts generalizing c with
  | nil => exact quiet
  | cons t rest ih => exact ih ⟨quiet.issues, quiet.warnings⟩

theorem exists_plan (h : mapToGraph p o d vs = .ok c) (quiet : c.Quiet) :
    ∃ plan : Plan, plan.Fits p o d vs ∧ c = plan.candidate := by
  obtain ⟨stage, es, hstage, hplaces, hitems, hes⟩ := mapToGraph_split h
  obtain ⟨stage', hstage', hc⟩ := bind_eq_ok.mp h
  obtain rfl := Except.ok.inj (hstage.symm.trans hstage')
  obtain rfl := Except.ok.inj hc
  obtain ⟨hquiet, edges, hedges⟩ := stageConnections_quiet quiet
  obtain ⟨_, nodes, staged, filtered, hnodes⟩ := stageNodes_quiet hstage hquiet
  obtain rfl := Except.ok.inj (hstage.symm.trans (hnodes _ (fun _ h => h) rfl))
  -- the run itself goes by the plan
  have hown := hedges (nodes.foldl Candidate.plus {}) (.refl _ _)
  simp only [NodeStage.plus, List.append_nil] at hedges hown hplaces hitems
  rw [hown, items_foldl_plus, items_foldl_plus, List.append_cancel_left_eq] at hitems
  refine ⟨⟨nodes, edges, staged, filtered⟩, ⟨hnodes, hedges, ?_, ?_⟩, ?_⟩
  · intro item hitem
    exact hplaces item (by simpa [items_foldl_plus] using hitem)
  · exact fun item hitem => hes item (hitems ▸ hitem)
  · simp only [Plan.candidate, NodeStage.plus, List.append_nil, List.foldl_append]
    exact hown

end Plans

end Stix

end GraphWorkbench

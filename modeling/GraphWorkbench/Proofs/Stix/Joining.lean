import GraphWorkbench.Proofs.Document.Swapping
import GraphWorkbench.Proofs.Stix.Counting
import GraphWorkbench.Proofs.Stix.Quiet
import GraphWorkbench.Proofs.Stix.Validation
/-!
Two bundles imported one after the other, and as one. Where nothing is told of any object, an object
asks for the same whatever stands beside it in the bundle and whatever was imported before; so what
the joined bundle asks for differs only in its order, and nodes can be taken before edges.
-/
namespace GraphWorkbench

open Outcome

namespace Stix

variable {p : Preset} {o : Options} {d d' : Document} {c c' : Candidate} {vs ws : List ValidObject}

/-! Plans of bundles one after the other. -/

section Plans

/-- Plans of objects that come one after the other go together, where the second one was made on a
document to which the elements of the first one were added. -/
theorem Plan.Fits.join {first second : Plan} (h : first.Fits p o d vs) (h' : second.Fits p o d' ws)
    (within : d.Within d')
    (nodes : ∀ key, d'.nodes.has key = true → d.nodes.has key = true ∨ key ∈ first.staged)
    (size : d'.nodes.size = d.nodes.size + (Intake.allItems first.nodes).length) :
    mapToGraph p o d (vs ++ ws) =
      .ok ((first.nodes ++ second.nodes ++ (first.edges ++ second.edges)).foldl Candidate.plus {}) := by
  let k : Known := { nodes := (second.staged ++ first.staged) ++ d.nodes.keys
                     filtered := second.filtered ++ first.filtered }
  have hfirst : Clears d { nodes := first.staged ++ d.nodes.keys, filtered := first.filtered } d k :=
    ⟨fun _ h => h, fun ref href => by simpa [k] using .inr (List.mem_append.mp href)⟩
  -- whatever the second run knew is there or staged by the first one
  have hsecond : Clears d' { nodes := second.staged ++ d'.nodes.keys, filtered := second.filtered }
      d k := by
    refine ⟨within.edgeKeys, fun ref href => ?_⟩
    rw [List.mem_append, ← Table.has_iff_mem_keys] at href
    simp only [k, List.mem_append, ← Table.has_iff_mem_keys]
    rcases href with hstaged | hthere
    · exact .inl (.inl hstaged)
    · exact (nodes ref hthere).elim .inr fun hstaged => .inl (.inr hstaged)
  unfold mapToGraph
  simp only [List.filter_append, List.foldlM_append, List.foldl_append]
  rw [h.nodes _ (fun _ h => h) rfl, ok_bind, h'.nodes _ within.nodeKeys size.symm, ok_bind]
  simp only [NodeStage.plus, List.append_nil]
  rw [h.edges _ hfirst, h'.edges _ hsecond]
  rfl

end Plans

/-! Staging where nothing is refused. -/

section Staging

theorem Sifted.accepted_eq {items accepted : List Item} (h : Sifted items accepted []) :
    accepted = items := by
  generalize hnone : ([] : List Issue) = issues at h
  induction h with
  | done => rfl
  | keep _ ih => rw [ih hnone]
  | drop => exact nomatch hnone

variable {draft draft' : Draft} {items accepted : List Item}

theorem Staged.effects (h : Staged p draft items accepted draft') (adds : ∀ i ∈ items, i.Adds) :
    Effects p draft.working (accepted.map Item.mutation) draft'.working := by
  induction h with
  | done => exact .nil _
  | accept performed _ ih =>
    obtain ⟨hitem, hrest⟩ := List.forall_mem_cons.mp adds
    exact .cons (Draft.accepted_of_perform hitem.single performed).effect (ih hrest)
  | refuse _ _ ih => exact ih (List.forall_mem_cons.mp adds).2

/-- Items whose mutations have effects one after another are all accepted. -/
theorem staged_of_effects (draft : Draft) (adds : ∀ i ∈ items, i.Adds)
    (h : Effects p draft.working (items.map Item.mutation) d') (c : Candidate) :
    ∃ draft', stageItems p draft c items = .ok (c, items) ∧ Staged p draft items items draft' ∧
      draft'.working = d' := by
  induction items generalizing draft with
  | nil =>
    cases h
    exact ⟨draft, rfl, .done, rfl⟩
  | cons item rest ih =>
    obtain ⟨hitem, hrest⟩ := List.forall_mem_cons.mp adds
    cases h with
    | cons first others =>
      obtain ⟨mid, hperform, rfl⟩ := Draft.perform_of_effect hitem first
      obtain ⟨draft', hrun, hstaged, hworking⟩ := ih mid hrest others
      refine ⟨draft', ?_, .accept hperform hstaged, hworking⟩
      rw [stageItems, Draft.stage_of_single hitem.single, hperform]
      simp only [hrun]
      rfl

theorem Plan.items_candidate (plan : Plan) :
    plan.candidate.items = Intake.allItems plan.nodes ++ Intake.allItems plan.edges := by
  rw [candidate, items_foldl_plus, Intake.allItems, List.flatMap_append]
  rfl

/-- The elements that a plan asks for stand in the document to which they lead, and nothing new stands
beside them. -/
theorem Plan.Fits.grown {plan : Plan} (h : plan.Fits p o d vs)
    (effects : Effects p d (plan.candidate.items.map Item.mutation) d') :
    d.Within d' ∧ (∀ key, d'.nodes.has key = true → d.nodes.has key = true ∨ key ∈ plan.staged) ∧
      d'.nodes.size = d.nodes.size + (Intake.allItems plan.nodes).length := by
  rw [plan.items_candidate] at effects
  have hadds : ∀ i ∈ Intake.allItems plan.nodes ++ Intake.allItems plan.edges, i.Adds := by
    intro i hi
    refine (List.mem_append.mp hi).imp (fun hnode => ?_) (h.edgeItems i)
    obtain ⟨n, hn, _⟩ := h.nodeItems i hnode
    exact ⟨n, hn⟩
  obtain ⟨draft', _, hstaged, rfl⟩ := staged_of_effects (.start d) hadds effects {}
  have hgrows := hstaged.grows hadds
  refine ⟨hgrows.within, fun key hkey => ?_, ?_⟩
  · rcases hstaged.has_node hadds hkey with hold | ⟨i, hi, n, hm, rfl⟩
    · exact .inl hold
    · right
      rcases List.mem_append.mp hi with hnode | hedge
      · obtain ⟨n', hm', hn'⟩ := h.nodeItems i hnode
        obtain rfl := Mutation.addNode.inj (hm.symm.trans hm')
        exact hn'
      · obtain ⟨e, he⟩ := h.edgeItems i hedge
        exact nomatch hm.symm.trans he
  · obtain ⟨added, hentries, hlength⟩ := hgrows.nodes
    have hnodes : (Intake.allItems plan.nodes).countP isNodeItem =
        (Intake.allItems plan.nodes).length := by
      refine List.countP_eq_length.mpr fun i hi => ?_
      obtain ⟨n, hn, _⟩ := h.nodeItems i hi
      simp [isNodeItem, hn]
    have hedges : (Intake.allItems plan.edges).countP isNodeItem = 0 := by
      refine List.countP_eq_zero.mpr fun i hi => ?_
      obtain ⟨e, he⟩ := h.edgeItems i hi
      simp [isNodeItem, he]
    rw [List.countP_append, hnodes, hedges] at hlength
    rw [Table.size, hentries, List.length_append, hlength]
    rfl

/-- What two plans ask for one after the other can be added with all nodes first. -/
theorem Plan.Fits.effects_joined {first second : Plan} {d'' : Document} (h : first.Fits p o d vs)
    (h' : second.Fits p o d' ws) (effects : Effects p d (first.candidate.items.map Item.mutation) d')
    (effects' : Effects p d' (second.candidate.items.map Item.mutation) d'') :
    Effects p d ((Intake.allItems (first.nodes ++ second.nodes ++
      (first.edges ++ second.edges))).map Item.mutation) d'' := by
  rw [items_candidate, List.map_append] at effects effects'
  obtain ⟨_, hnodes, hedges⟩ := effects.split
  obtain ⟨_, hnodes', hedges'⟩ := effects'.split
  obtain ⟨_, hearly, hlate⟩ := Effects.swap (List.forall_mem_map.mpr h.edgeItems)
    (List.forall_mem_map.mpr fun i hi => (h'.nodeItems i hi).imp fun _ hn => hn.1) hedges hnodes'
  have hall := (hnodes.append hearly).append (hlate.append hedges')
  simpa only [Intake.allItems, List.flatMap_append, List.map_append] using hall

end Staging

/-! Imports that tell nothing. -/

/-- A summary that tells of no error and of no warning. -/
structure Summary.Clean (summary : Summary) : Prop where
  issues : summary.issues = []
  warnings : summary.warnings = []
  unknown : summary.unknown = []

/-- Objects that go through without anything to tell: what a candidate asks for leads from one
document to another. -/
structure Flow (p : Preset) (o : Options) (d : Document) (valid : List ValidObject) (c : Candidate)
    (d' : Document) : Prop where
  mapped : mapToGraph p o d valid = .ok c
  quiet : c.Quiet
  effects : Effects p d (c.items.map Item.mutation) d'

/-- A bundle that goes through without anything to tell. -/
structure Smooth (p : Preset) (o : Options) (d : Document) (b : Bundle) (c : Candidate)
    (d' : Document) : Prop where
  issues : (validate b).issues = []
  unknown : (validate b).unknown = []
  flow : Flow p o d (validate b).valid c d'

section Run

variable {s s' : Store} {origin : Bundle.Origin} {b : Bundle} {summary : Summary}

theorem smooth_of_importInto (read : Bundle.read origin = .ok (.ok b))
    (h : importInto s o origin false = (s', .ok summary)) (clean : summary.Clean) :
    ∃ c, Smooth s.preset o s.document b c s'.document ∧ s'.preset = s.preset ∧
      summary = summarize b (validate b) c c.items := by
  cases hprepare : prepare s o origin with
  | error e =>
    rw [importInto_of_error hprepare] at h
    exact nomatch congrArg Prod.snd h
  | ok prepared =>
    obtain ⟨b', report, c', accepted⟩ := prepared
    obtain ⟨hread, rfl, c, hmapped, hstage⟩ := prepare_eq_ok_iff.mp hprepare
    obtain rfl : b' = b := by simpa [read] using hread.symm
    have hadds := mapToGraph_adds hmapped
    rw [importInto_of_commit hprepare (commit_accepted hadds hstage).1] at h
    obtain ⟨rfl, hsummary⟩ := Prod.mk.inj h
    obtain rfl := Except.ok.inj hsummary
    obtain ⟨issues, hsifted, rfl⟩ := sifted_of_stageItems hstage
    obtain ⟨draft', hstaged⟩ := staged_of_stageItems hstage
    obtain ⟨hdocument, hpreset⟩ := hstaged.commit_document
    -- where no issue is told, there was none at any stage, and no item was refused
    have hnone : (validate b').issues ++ (c.issues ++ issues) = [] := by
      have hsorted : ((validate b').issues ++ (c.issues ++ issues)).mergeSort
          (fun a b => a.index ≤ b.index) = [] := clean.issues
      have hperm := List.mergeSort_perm ((validate b').issues ++ (c.issues ++ issues))
        fun a b => a.index ≤ b.index
      rw [hsorted] at hperm
      exact hperm.nil_eq.symm
    obtain ⟨hvalidated, hmore⟩ := List.append_eq_nil_iff.mp hnone
    obtain ⟨hquiet, rfl⟩ := List.append_eq_nil_iff.mp hmore
    obtain rfl : accepted = c.items := hsifted.accepted_eq
    refine ⟨c, ⟨hvalidated, clean.unknown, hmapped, ⟨hquiet, clean.warnings⟩, ?_⟩, hpreset, ?_⟩
    · have heffects := hstaged.effects hadds
      rw [← hdocument] at heffects
      exact heffects
    · simp only [List.append_nil]

theorem importInto_of_smooth {c : Candidate} {d' : Document} (read : Bundle.read origin = .ok (.ok b))
    (h : Smooth s.preset o s.document b c d') :
    ∃ s', importInto s o origin false = (s', .ok (summarize b (validate b) c c.items)) ∧
      (summarize b (validate b) c c.items).Clean ∧ s'.document = d' := by
  obtain ⟨hmapped, hquiet, heffects⟩ := h.flow
  have hadds := mapToGraph_adds hmapped
  obtain ⟨draft', hrun, hstaged, rfl⟩ := staged_of_effects (.start s.document) hadds heffects c
  have hstage : stage s.preset s.document c = .ok (c, c.items) := hrun
  have hprepare := prepare_eq_ok_iff.mpr ⟨read, rfl, c, hmapped, hstage⟩
  refine ⟨_, importInto_of_commit hprepare (commit_accepted hadds hstage).1, ⟨?_, ?_, ?_⟩, ?_⟩
  · change ((validate b).issues ++ c.issues).mergeSort _ = []
    rw [h.issues, hquiet.issues, List.nil_append, List.mergeSort_nil]
  · exact hquiet.warnings
  · exact h.unknown
  · exact hstaged.commit_document.1

end Run

/-! What two bundles come to together. -/

/-- A candidate that counts what two others count together. -/
structure Candidate.Sums (c first second : Candidate) : Prop where
  items : ∀ counted : Item → Bool,
    c.items.countP counted = first.items.countP counted + second.items.countP counted
  skipped : c.skipped = first.skipped + second.skipped
  byType : ∀ type, c.byType.get? type =
    Option.merge (· + ·) (first.byType.get? type) (second.byType.get? type)

section Together

theorem byType_foldl_plus (ts : List Intake) (c : Candidate) :
    (ts.foldl Candidate.plus c).byType = c.byType.counting (ts.map Intake.type) := by
  induction ts generalizing c with
  | nil => rfl
  | cons t rest ih =>
    rw [List.foldl_cons, ih]
    rfl

theorem Intake.allLeft_append (ts ts' : List Intake) :
    allLeft (ts ++ ts') = allLeft ts + allLeft ts' := by
  induction ts with
  | nil => exact (Nat.zero_add _).symm
  | cons t rest ih => exact (congrArg (t.left + ·) ih).trans (Nat.add_assoc ..).symm

/-- The counts of plans, in whatever order their parts come. -/
theorem Plan.sums (first second : Plan) :
    Candidate.Sums ((first.nodes ++ second.nodes ++ (first.edges ++ second.edges)).foldl
      Candidate.plus {}) first.candidate second.candidate := by
  constructor
  · intro counted
    rw [first.items_candidate, second.items_candidate, items_foldl_plus]
    simp only [Intake.allItems, List.flatMap_append, List.countP_append, List.countP_nil]
    omega
  · simp only [candidate, skipped_foldl_plus, Intake.allLeft_append]
    omega
  · intro type
    have hempty : ({} : Candidate).byType.get? type = none := rfl
    simp only [candidate, byType_foldl_plus, Table.get?_counting, hempty, Option.merge_none_left,
      ← tally_add]
    refine congrArg tally ?_
    simp only [List.map_append, List.count_append]
    omega

variable {mid : Document}

/-- What becomes of objects does not go by their places. -/
theorem Flow.moved (h : Flow p o d vs c d') (f : Nat → Nat) :
    Flow p o d (vs.map (ValidObject.moved f)) (c.moved f) d' := by
  refine ⟨?_, ⟨?_, ?_⟩, ?_⟩
  · rw [mapToGraph_moved, h.mapped]
    rfl
  · rw [Candidate.moved, h.quiet.issues, List.map_nil]
  · rw [Candidate.moved, h.quiet.warnings, List.map_nil]
  · rw [Candidate.moved, mutations_moved]
    exact h.effects

/-- Objects that go through one lot after the other go through together. -/
theorem Flow.join (h : Flow p o d vs c mid) (h' : Flow p o mid ws c' d') :
    ∃ joint : Candidate, Flow p o d (vs ++ ws) joint d' ∧ joint.Sums c c' := by
  obtain ⟨plan, hplan, rfl⟩ := exists_plan h.mapped h.quiet
  obtain ⟨plan', hplan', rfl⟩ := exists_plan h'.mapped h'.quiet
  obtain ⟨hwithin, hnodes, hsize⟩ := hplan.grown h.effects
  refine ⟨_, ⟨hplan.join hplan' hwithin hnodes hsize, quiet_foldl_plus ⟨rfl, rfl⟩, ?_⟩,
    plan.sums plan'⟩
  rw [items_foldl_plus]
  exact hplan.effects_joined hplan' h.effects h'.effects

theorem get?_summarize {b : Bundle} {items : List Item} (unknown : (validate b).unknown = [])
    (type : String) : (summarize b (validate b) c items).byType.get? type = c.byType.get? type := by
  rw [byType_summarize, unknown]
  exact Table.get?_ofEntries_of_perm (List.mergeSort_perm _ _) type

end Together

/-- Where a bundle and then another one that shares no id with it are imported without anything to
tell, the bundle that joins them is imported to the same document without anything to tell, and its
counts are the sums of those of both. -/
theorem importInto_joined {s s₁ s₂ : Store} {originA originB origin : Bundle.Origin}
    {a b joined : Bundle} {first second : Summary} (readA : Bundle.read originA = .ok (.ok a))
    (readB : Bundle.read originB = .ok (.ok b)) (read : Bundle.read origin = .ok (.ok joined))
    (objects : joined.objects = a.objects ++ b.objects) (apart : ∀ id ∈ a.ids, id ∉ b.ids)
    (runA : importInto s o originA false = (s₁, .ok first)) (cleanA : first.Clean)
    (runB : importInto s₁ o originB false = (s₂, .ok second)) (cleanB : second.Clean) :
    ∃ s' summary, importInto s o origin false = (s', .ok summary) ∧ summary.Clean ∧
      s'.document = s₂.document ∧
      summary.objectsRead = first.objectsRead + second.objectsRead ∧
      summary.nodesCreated = first.nodesCreated + second.nodesCreated ∧
      summary.edgesCreated = first.edgesCreated + second.edgesCreated ∧
      summary.skipped = first.skipped + second.skipped ∧
      ∀ type, summary.byType.get? type =
        Option.merge (· + ·) (first.byType.get? type) (second.byType.get? type) := by
  let move (i : Nat) : Nat := a.objects.length + i
  obtain ⟨c, hfirst, hpreset, rfl⟩ := smooth_of_importInto readA runA cleanA
  obtain ⟨c', hsecond, _, rfl⟩ := smooth_of_importInto readB runB cleanB
  rw [hpreset] at hsecond
  -- the second bundle stands behind the first one, so its entries have other numbers
  obtain ⟨joint, hflow, hsums⟩ := hfirst.flow.join (hsecond.flow.moved move)
  have hvalidate := validate_joined objects apart
  have hsmooth : Smooth s.preset o s.document joined joint s₂.document := by
    refine ⟨?_, ?_, ?_⟩ <;> rw [hvalidate]
    · rw [hfirst.issues, hsecond.issues]
      rfl
    · rw [hfirst.unknown, hsecond.unknown]
      rfl
    · exact hflow
  obtain ⟨s', hrun, hclean, hdocument⟩ := importInto_of_smooth read hsmooth
  have hcount : ∀ counted : Item → Bool, (∀ item, counted (item.moved move) = counted item) →
      joint.items.countP counted = c.items.countP counted + c'.items.countP counted := by
    intro counted same
    rw [hsums.items, Candidate.moved, countP_moved move same]
  refine ⟨s', _, hrun, hclean, hdocument, ?_, hcount _ fun _ => rfl, hcount _ fun _ => rfl, ?_, ?_⟩
  · exact (congrArg List.length objects).trans List.length_append
  · change joint.skipped + (validate joined).unknown.length =
      (c.skipped + (validate a).unknown.length) + (c'.skipped + (validate b).unknown.length)
    rw [hsmooth.unknown, hfirst.unknown, hsecond.unknown, hsums.skipped]
    rfl
  · intro type
    rw [get?_summarize hsmooth.unknown, get?_summarize hfirst.unknown,
      get?_summarize hsecond.unknown, hsums.byType]
    rfl

section Example

/-- Two hosts and a link between them. -/
def linkedPair : List Json :=
  [dated "identity" "identity--a" [("name", .str "a")],
    dated "identity" "identity--b" [("name", .str "b")],
    uses "relationship--a" "identity--a" "identity--b"]

/-- A further host, which is linked to one of the pair, and an object that is not wanted. -/
def linkedThird : List Json :=
  [uses "relationship--b" "identity--c" "identity--a", dated "location" "location--a" [],
    dated "identity" "identity--c" [("name", .str "c")]]

/-- What a summary counts, if it is clean. -/
def Summary.cleanCounts? (t : Summary) : Option (Nat × Nat × Nat × Nat) :=
  if t.issues.isEmpty && t.warnings.isEmpty && t.unknown.isEmpty then
    some (t.objectsRead, t.nodesCreated, t.edgesCreated, t.skipped)
  else none

theorem Summary.clean_of_counts {t : Summary} {counts : Nat × Nat × Nat × Nat}
    (h : t.cleanCounts? = some counts) :
    t.Clean ∧ (t.objectsRead, t.nodesCreated, t.edgesCreated, t.skipped) = counts := by
  unfold cleanCounts? at h
  split at h
  next hclean =>
    simp only [Bool.and_eq_true, List.isEmpty_iff] at hclean
    exact ⟨⟨hclean.1.1, hclean.1.2, hclean.2⟩, Option.some.inj h⟩
  next => exact nomatch h

/-- The link to the pair goes in after that of the pair in both runs, though all hosts go first when
the bundles are joined. -/
theorem importInto_joined_linkedPair :
    ∃ s₁ s₂ first second,
      importInto hostsStore hostsOptions (.value (bundleOf linkedPair)) false = (s₁, .ok first) ∧
      importInto s₁ hostsOptions (.value (bundleOf linkedThird)) false = (s₂, .ok second) ∧
      first.Clean ∧ second.Clean ∧
      (first.objectsRead, first.nodesCreated, first.edgesCreated, first.skipped) = (3, 2, 1, 0) ∧
      (second.objectsRead, second.nodesCreated, second.edgesCreated, second.skipped) = (3, 1, 1, 1) ∧
      ∃ s' summary, importInto hostsStore hostsOptions
          (.value (bundleOf (linkedPair ++ linkedThird))) false = (s', .ok summary) ∧
        summary.Clean ∧ s'.document = s₂.document ∧ summary.objectsRead = 6 ∧
        summary.nodesCreated = 3 ∧ summary.edgesCreated = 2 ∧ summary.skipped = 1 := by
  have hfirst : (importInto hostsStore hostsOptions (.value (bundleOf linkedPair))
      false).2.toOption.bind Summary.cleanCounts? = some (3, 2, 1, 0) := by
    decide +kernel
  have hsecond : (importInto (importInto hostsStore hostsOptions (.value (bundleOf linkedPair))
      false).1 hostsOptions (.value (bundleOf linkedThird)) false).2.toOption.bind
        Summary.cleanCounts? = some (3, 1, 1, 1) := by
    decide +kernel
  have hapart : ∀ id ∈ Bundle.ids { objects := linkedPair },
      id ∉ Bundle.ids { objects := linkedThird } := by
    decide +kernel
  cases hrunA : importInto hostsStore hostsOptions (.value (bundleOf linkedPair)) false with
  | mk s₁ outcome =>
    rw [hrunA] at hfirst hsecond
    cases hrunB : importInto s₁ hostsOptions (.value (bundleOf linkedThird)) false with
    | mk s₂ outcome' =>
      rw [hrunB] at hsecond
      obtain ⟨first, hsome, hcounts⟩ := Option.bind_eq_some_iff.mp hfirst
      obtain ⟨second, hsome', hcounts'⟩ := Option.bind_eq_some_iff.mp hsecond
      obtain rfl : outcome = .ok first := eq_ok_of_toOption hsome
      obtain rfl : outcome' = .ok second := eq_ok_of_toOption hsome'
      obtain ⟨hclean, hcounted⟩ := Summary.clean_of_counts hcounts
      obtain ⟨hclean', hcounted'⟩ := Summary.clean_of_counts hcounts'
      obtain ⟨s', summary, hrun, hjoined, hdocument, hobjects, hnodes, hedges, hskipped, _⟩ :=
        importInto_joined (read_bundleOf linkedPair) (read_bundleOf linkedThird)
          (read_bundleOf (linkedPair ++ linkedThird)) rfl hapart hrunA hclean hrunB hclean'
      refine ⟨s₁, s₂, first, second, rfl, hrunB, hclean, hclean', hcounted, hcounted', s', summary,
        hrun, hjoined, hdocument, ?_⟩
      simp only [Prod.mk.injEq] at hcounted hcounted'
      omega

end Example

end Stix

end GraphWorkbench

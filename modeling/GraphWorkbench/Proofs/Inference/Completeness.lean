import GraphWorkbench.Proofs.Inference.Harvest
import GraphWorkbench.Proofs.Inference.Multiplicity
/-!
No derived edge is lost for want of room where all derived relationships are many to many. What can
still be lost is an edge whose id another one bears: ids run the mapping and both nodes together, and
of the edges that come to one id the last one stays.
-/
namespace GraphWorkbench

open Outcome

section Ids

/-- Texts in which a sign stands last at the same place are told apart by what is around it. -/
theorem append_cons_inj_of_notMem_right {α : Type} {x : α} {xs xs' ys ys' : List α}
    (hys : x ∉ ys) (hys' : x ∉ ys') (h : xs ++ x :: ys = xs' ++ x :: ys') : xs = xs' ∧ ys = ys' := by
  rcases List.append_eq_append_iff.mp h with ⟨as, rfl, has⟩ | ⟨as, rfl, has⟩
  · cases as with
    | nil => simp_all
    | cons a rest =>
      obtain ⟨_, hrest⟩ := List.cons.inj has
      exact absurd (hrest ▸ List.mem_append_right _ List.mem_cons_self) hys
  · cases as with
    | nil => simp_all
    | cons a rest =>
      obtain ⟨_, hrest⟩ := List.cons.inj has
      exact absurd (hrest ▸ List.mem_append_right _ List.mem_cons_self) hys'

theorem Mapping.toList_edge_id (m : Mapping) (relationship source target : String) :
    (m.edge relationship source target).id.toList =
      "inferred--".toList ++ m.id.toList ++ ['-'] ++ '-' :: source.toList ++ ['-'] ++
        '-' :: target.toList := by
  have hid : (m.edge relationship source target).id =
      "inferred--" ++ m.id ++ "--" ++ source ++ "--" ++ target := rfl
  rw [hid]
  simp [String.toList_append]

/-- Where nodes have no hyphens in their ids, the id of a derived edge tells the mapping and both
nodes. -/
theorem Mapping.edge_id_inj {m m' : Mapping} {r r' source source' target target' : String}
    (hsource : '-' ∉ source.toList) (hsource' : '-' ∉ source'.toList)
    (htarget : '-' ∉ target.toList) (htarget' : '-' ∉ target'.toList)
    (h : (m.edge r source target).id = (m'.edge r' source' target').id) :
    m.id = m'.id ∧ source = source' ∧ target = target' := by
  have hchars := congrArg String.toList h
  rw [toList_edge_id, toList_edge_id] at hchars
  obtain ⟨hfront, htargets⟩ := append_cons_inj_of_notMem_right htarget htarget' hchars
  have hfront := List.append_cancel_right hfront
  obtain ⟨hmapping, hsources⟩ := append_cons_inj_of_notMem_right hsource hsource' hfront
  have hmapping := List.append_cancel_left (List.append_cancel_right hmapping)
  exact ⟨String.toList_inj.mp hmapping, String.toList_inj.mp hsources, String.toList_inj.mp htargets⟩

end Ids

namespace Inference

variable {p : Preset} {d : Document} {v : GraphView}

section Keeping

variable {kept kept' : Table DerivedEdge} {candidates : List DerivedEdge}

theorem Keeps.mem_values (h : Keeps p d kept candidates kept') {e : DerivedEdge}
    (he : e ∈ kept'.values) : e ∈ kept.values ∨ e ∈ candidates := by
  induction h with
  | done => exact .inl he
  | keep room _ ih =>
    rcases ih he with hput | hrest
    · rcases Table.mem_values_put hput with rfl | hold
      · exact .inr List.mem_cons_self
      · exact .inl hold
    · exact .inr (List.mem_cons_of_mem _ hrest)
  | drop _ _ ih => exact (ih he).imp_right (List.mem_cons_of_mem _)

/-- Where every candidate has room, all ids of candidates are kept, though not every candidate. -/
theorem Keeps.has_id (h : Keeps p d kept candidates kept')
    (room : ∀ e ∈ candidates, ∀ t, HasRoom p d t e) {key : String}
    (known : kept.has key = true ∨ ∃ e ∈ candidates, e.id = key) : kept'.has key = true := by
  induction h with
  | done => exact known.resolve_right (by simp)
  | @keep kept _ e rest _ _ ih =>
    refine ih (fun f hf => room f (List.mem_cons_of_mem _ hf)) ?_
    rcases known with hold | ⟨f, hf, hkey⟩
    · exact .inl (Table.has_put.mpr (.inr hold))
    · rcases List.mem_cons.mp hf with rfl | hrest
      · exact .inl (Table.has_put.mpr (.inl hkey.symm))
      · exact .inr ⟨f, hrest, hkey⟩
  | drop full _ ih => exact absurd (room _ List.mem_cons_self _) full

end Keeping

/-- No relationship that a mapping derives limits how many edges a node has. -/
def Unlimited (p : Preset) : Prop :=
  ∀ m ∈ p.mappings, ∀ name r, m.rule.derived = some name → p.ruling? name = some r →
    r.multiplicity = .manyToMany

theorem Unlimited.hasRoom (unlimited : Unlimited p) {m : Mapping} {e : DerivedEdge}
    (h : Derives p d v m e) (kept : Table DerivedEdge) : HasRoom p d kept e := by
  intro o _ _ _ r hr
  have hmany : r.multiplicity = .manyToMany :=
    unlimited m h.mapping e.relationship r h.comes.derives hr
  simp [Relationship.clashes, hmany]

/-- The graph that a pass is made on. -/
abbrev graphOf (p : Preset) (d : Document) (before : List DerivedEdge) : GraphView :=
  GraphView.ofDocument p d (before.map DerivedEdge.toEdge)

/-- The edges that lead from one node to another. -/
def between (edges : List DerivedEdge) (source target : String) : List DerivedEdge :=
  edges.filter fun e => e.source == source && e.target == target

/-- An edge between other nodes bears an id by which an edge between these two could go. -/
def Displaced (p : Preset) (d : Document) (v : GraphView) (edges : List DerivedEdge)
    (source target : String) : Prop :=
  ∃ m e o, Derives p d v m e ∧ e.source = source ∧ e.target = target ∧ o ∈ edges ∧ o.id = e.id ∧
    ¬ (o.source = source ∧ o.target = target)

section Pass

variable {before : List DerivedEdge} {answer : List DerivedEdge × Attributes} {h : Harvest}
  {m : Mapping} {e o : DerivedEdge}

theorem Good.shows (good : Good p d before) (hd : d.Valid p) : (graphOf p d before).Shows d :=
  GraphView.shows_ofDocument hd good.connects

theorem between_eq_singleton {edges : List DerivedEdge} (distinct : edges.Pairwise DistinctEnds)
    (ho : o ∈ edges) : between edges o.source o.target = [o] := by
  induction edges with
  | nil => exact absurd ho List.not_mem_nil
  | cons a rest ih =>
    obtain ⟨ha, hrest⟩ := List.pairwise_cons.mp distinct
    rcases List.mem_cons.mp ho with rfl | hmem
    · have hnone : between rest o.source o.target = [] := by
        refine List.filter_eq_nil_iff.mpr fun e he hends => ha e he ?_
        simp only [Bool.and_eq_true, beq_iff_eq] at hends
        exact ⟨hends.1.symm, hends.2.symm⟩
      rw [between, List.filter_cons_of_pos (by simp)]
      exact congrArg (List.cons o) hnone
    · rw [between, List.filter_cons_of_neg]
      · exact ih hrest hmem
      · simp only [Bool.and_eq_true, beq_iff_eq]
        exact ha o hmem

theorem mem_of_between {edges : List DerivedEdge} {source target : String}
    (h : between edges source target = [o]) :
    o ∈ edges ∧ o.source = source ∧ o.target = target := by
  have ho : o ∈ between edges source target := h ▸ List.mem_singleton_self o
  simpa [between] using ho

theorem derives_of_mem_harvest (hp : p.WellFormed) (hd : d.Valid p) (hv : v.Shows d)
    (run : harvest p d v = .ok h) (he : e ∈ h.edges) : ∃ m, Derives p d v m e := by
  rw [edges_of_harvest run] at he
  have hoffered := (mem_of_mem_foldl_putLast he).resolve_left List.not_mem_nil
  exact (mem_candidates hp hd hv).mp hoffered

/-- Every pair of nodes for which an edge can be derived has one among those gathered. -/
theorem exists_gathered_of_derives (hp : p.WellFormed) (hd : d.Valid p) (hv : v.Shows d)
    (run : harvest p d v = .ok h) (he : Derives p d v m e) :
    ∃ f ∈ h.edges, f.source = e.source ∧ f.target = e.target := by
  rw [edges_of_harvest run]
  exact exists_joining_of_mem (.inr ((mem_candidates hp hd hv).mpr ⟨m, he⟩))

/-- A pass answers with edges that it has gathered, and with all attributes. -/
theorem gathered_of_pass (run : pass p d before = .ok answer) :
    ∃ h, harvest p d (graphOf p d before) = .ok h ∧ (∀ o ∈ answer.1, o ∈ h.edges) ∧
      answer.2 = h.attributes := by
  obtain ⟨h, hharvest, hrest⟩ := bind_eq_ok.mp run
  obtain ⟨kept, hkept, hanswer⟩ := bind_eq_ok.mp hrest
  obtain rfl := Except.ok.inj hanswer
  refine ⟨h, hharvest, ?_, rfl⟩
  intro o ho
  have hvalue : o ∈ kept.values := List.mem_mergeSort.mp ho
  have hcandidate := (keeps_of_keepWithin hkept).mem_values hvalue
  exact List.mem_mergeSort.mp (hcandidate.resolve_left List.not_mem_nil)

/-- A pass answers with edges that some mapping derives. -/
theorem derives_of_mem_pass (hp : p.WellFormed) (hd : d.Valid p) (good : Good p d before)
    (run : pass p d before = .ok answer) (ho : o ∈ answer.1) :
    ∃ m, Derives p d (graphOf p d before) m o := by
  obtain ⟨h, hharvest, hgathered, _⟩ := gathered_of_pass run
  exact derives_of_mem_harvest hp hd (good.shows hd) hharvest (hgathered o ho)

/-- No two edges of an answer go by one id. -/
theorem eq_of_id_of_pass (hd : d.Valid p) (run : pass p d before = .ok answer) (he : e ∈ answer.1)
    (ho : o ∈ answer.1) (same : e.id = o.id) : e = o := by
  obtain ⟨_, kept, _, hkeeps, hanswer⟩ := pass_keeps run
  have hspaced : Spaced p d kept := hkeeps.spaced hd Spaced.empty
  obtain ⟨key, hkey⟩ := Table.exists_get?_of_mem_values (hanswer.mem_iff.mp he)
  obtain ⟨other, hother⟩ := Table.exists_get?_of_mem_values (hanswer.mem_iff.mp ho)
  have hkeys : key = other := by rw [← hspaced.named key e hkey, same, hspaced.named other o hother]
  exact Option.some.inj (hkey.symm.trans (hkeys ▸ hother))

/-- Where an edge can be derived, the candidate for its nodes leaves its id in the answer. -/
theorem exists_id_of_derives (hp : p.WellFormed) (hd : d.Valid p) (unlimited : Unlimited p)
    (good : Good p d before) (run : pass p d before = .ok answer)
    (he : Derives p d (graphOf p d before) m e) :
    ∃ m' f o, Derives p d (graphOf p d before) m' f ∧ f.source = e.source ∧ f.target = e.target ∧
      o ∈ answer.1 ∧ o.id = f.id := by
  have hview := good.shows hd
  obtain ⟨h, kept, hharvest, hkeeps, hanswer⟩ := pass_keeps run
  obtain ⟨f, hf, hsource, htarget⟩ := exists_gathered_of_derives hp hd hview hharvest he
  obtain ⟨m', hm'⟩ := derives_of_mem_harvest hp hd hview hharvest hf
  have hroom : ∀ c ∈ h.edges.mergeSort ranksBefore, ∀ t, HasRoom p d t c := by
    intro c hc t
    obtain ⟨m, hm⟩ := derives_of_mem_harvest hp hd hview hharvest (List.mem_mergeSort.mp hc)
    exact unlimited.hasRoom hm t
  have hid : kept.has f.id = true :=
    hkeeps.has_id hroom (.inr ⟨f, List.mem_mergeSort.mpr hf, rfl⟩)
  obtain ⟨o, ho⟩ := Table.has_iff_exists.mp hid
  have hname : o.id = f.id := (hkeeps.spaced hd Spaced.empty).named f.id o ho
  exact ⟨m', f, o, hm', hsource, htarget,
    hanswer.mem_iff.mpr (Table.mem_values_of_get? ho), hname⟩

/-- A pair of nodes for which an edge can be derived has one in the answer, unless the id of its
edge went to an edge between other nodes. -/
theorem between_of_derives (hp : p.WellFormed) (hd : d.Valid p) (unlimited : Unlimited p)
    (good : Good p d before) (run : pass p d before = .ok answer)
    (he : Derives p d (graphOf p d before) m e) :
    (∃ o, between answer.1 e.source e.target = [o]) ∨
      between answer.1 e.source e.target = [] ∧
        Displaced p d (graphOf p d before) answer.1 e.source e.target := by
  obtain ⟨_, hanswer, hgood⟩ := pass_gives hp hd good
  obtain rfl := Except.ok.inj (run.symm.trans hanswer)
  by_cases hjoined : ∃ o ∈ answer.1, o.source = e.source ∧ o.target = e.target
  · obtain ⟨o, ho, hsource, htarget⟩ := hjoined
    exact .inl ⟨o, hsource ▸ htarget ▸ between_eq_singleton hgood.distinct ho⟩
  · obtain ⟨m', f, o, hm', hsource, htarget, ho, hid⟩ :=
      exists_id_of_derives hp hd unlimited good run he
    refine .inr ⟨?_, m', f, o, hm', hsource, htarget, ho, hid, fun hends => hjoined ⟨o, ho, hends⟩⟩
    refine List.filter_eq_nil_iff.mpr fun c hc hends => hjoined ⟨c, hc, ?_⟩
    simpa using hends

/-- No edge is displaced where nodes have no hyphens in their ids. -/
theorem not_displaced (plain : ∀ key ∈ d.nodes.keys, '-' ∉ key.toList)
    (derived : ∀ o ∈ answer.1, ∃ m, Derives p d v m o) {source target : String} :
    ¬ Displaced p d v answer.1 source target := by
  have hends : ∀ {m e}, Derives p d v m e → '-' ∉ e.source.toList ∧ '-' ∉ e.target.toList := by
    intro m e h
    obtain ⟨n, _, hsource, _⟩ := h.comes.source
    obtain ⟨other, htarget, _⟩ := h.comes.target
    constructor
    · exact plain _ ((Table.has_iff_mem_keys _ _).mp (Table.has_iff_exists.mpr ⟨n, hsource⟩))
    · exact plain _ ((Table.has_iff_mem_keys _ _).mp (Table.has_iff_exists.mpr ⟨other, htarget⟩))
  rintro ⟨m, e, o, he, rfl, rfl, ho, hid, hother⟩
  obtain ⟨m', hm'⟩ := derived o ho
  rw [hm'.shape, he.shape] at hid
  obtain ⟨_, hsource, htarget⟩ := Mapping.edge_id_inj (hends hm').1 (hends he).1 (hends hm').2
    (hends he).2 hid
  exact hother ⟨hsource, htarget⟩

end Pass

section Example

variable {m : Multiplicity}

/-- Every pump can come to feed every tank that none feeds yet. -/
theorem feeding_derives (hv : v.Shows d) {source target : String} {pump tank : Node}
    (hpump : d.nodes.get? source = some pump) (ispump : pump.typeId = "pump")
    (htank : d.nodes.get? target = some tank) (istank : tank.typeId = "tank")
    (unfed : d.edges.values = []) :
    Derives (waterworksPreset m) d v feeding (feeding.edge "feeds" source target) := by
  have hapart : source ≠ target := by
    rintro rfl
    have hsame : pump = tank := Option.some.inj (hpump.symm.trans htank)
    rw [hsame, istank] at ispump
    exact absurd ispump (by decide)
  have hpumps : (waterworksPreset m).governing? pump.typeId =
      some { id := "pump", name := "Pump", style := { color := "#000000" } } := by
    rw [ispump]
    rfl
  have htanks : (waterworksPreset m).governing? tank.typeId =
      some { id := "tank", name := "Tank", style := { color := "#000000" } } := by
    rw [istank]
    rfl
  have hkey : target ∈ v.nodes.keys := by
    rw [← Table.has_iff_mem_keys, hv.has_eq]
    exact Table.has_iff_exists.mpr ⟨tank, htank⟩
  exact
    { mapping := List.mem_singleton_self _
      shape := rfl
      apart := hapart
      comes := ⟨rfl, rfl, ⟨pump, _, hpump, hpumps, .inl rfl⟩, tank, htank, by
        rintro types ⟨⟩
        exact .inr (istank ▸ List.mem_singleton_self _)⟩
      found := ⟨_, rfl, List.mem_filter.mpr ⟨hkey, bne_iff_ne.mpr hapart.symm⟩⟩
      joined := ⟨feeds m, rfl, ⟨pump, tank, _, _, hpump, htank, hpumps, htanks, .inl
        ⟨.inl List.mem_cons_self, .inl List.mem_cons_self, nofun, nofun⟩⟩,
        by simp [Unclaimed, unfed]⟩ }

theorem waterworks_unlimited : Unlimited (waterworksPreset .manyToMany) := by
  intro m hm name r hname hr
  obtain rfl := List.mem_singleton.mp hm
  obtain rfl := Option.some.inj hname
  exact Option.some.inj hr ▸ rfl

/-- Two pumps and two tanks, of which nothing is known yet but the ids. -/
def idle (pump pump' tank tank' : String) : Document :=
  plumb .manyToMany [.addNode { id := pump, typeId := "pump" },
    .addNode { id := pump', typeId := "pump" }, .addNode { id := tank, typeId := "tank" },
    .addNode { id := tank', typeId := "tank" }]

end Example

/-- Where the relationships that an accepted preset derives are many to many, a pass on a valid
document has exactly one edge from a node to another one whenever some mapping derives such an edge on
the graph of the pass, unless an edge between other nodes displaces it by its id; and that cannot be
where nodes have no hyphens in their ids. -/
theorem pass_complete {candidate : Json} (accepted : Audit.validate candidate = .ok (.ok p))
    (unlimited : Unlimited p) (valid : d.Valid p) (n : Nat) :
    ∃ before answer, afterPasses p d n = .ok before ∧ pass p d before.1 = .ok answer ∧
      ∀ m e, Derives p d (graphOf p d before.1) m e →
        ((∃ o, between answer.1 e.source e.target = [o]) ∨
          between answer.1 e.source e.target = [] ∧
            Displaced p d (graphOf p d before.1) answer.1 e.source e.target) ∧
        ((∀ key ∈ d.nodes.keys, '-' ∉ key.toList) →
          ∃ o, between answer.1 e.source e.target = [o]) := by
  have hwell := Audit.wellFormed_of_validate accepted
  obtain ⟨before, hbefore, hgood⟩ := afterPasses_gives hwell valid n
  obtain ⟨answer, hanswer, _⟩ := pass_gives hwell valid hgood
  refine ⟨before, answer, hbefore, hanswer, ?_⟩
  intro m e he
  have hpair := between_of_derives hwell valid unlimited hgood hanswer he
  refine ⟨hpair, fun plain => hpair.resolve_right fun hmissing => ?_⟩
  have hderived := fun o => derives_of_mem_pass (o := o) hwell valid hgood hanswer
  exact not_displaced plain hderived hmissing.2

/-- The ids of the edges from "a" to "b--c" and from "a--b" to "c" run together. -/
theorem pass_incomplete_idle :
    Audit.validate (waterworks .manyToMany) = .ok (.ok (waterworksPreset .manyToMany)) ∧
      Unlimited (waterworksPreset .manyToMany) ∧
      (idle "a" "a--b" "c" "b--c").Valid (waterworksPreset .manyToMany) ∧
      ∃ answer, pass (waterworksPreset .manyToMany) (idle "a" "a--b" "c" "b--c") [] = .ok answer ∧
        ¬ ∀ m e, Derives (waterworksPreset .manyToMany) (idle "a" "a--b" "c" "b--c")
            (graphOf (waterworksPreset .manyToMany) (idle "a" "a--b" "c" "b--c") []) m e →
          ∃ o, between answer.1 e.source e.target = [o] := by
  have hvalid : (idle "a" "a--b" "c" "b--c").Valid (waterworksPreset .manyToMany) := plumb_valid _ _
  have hwell := Audit.wellFormed_of_validate (waterworks_accepted .manyToMany)
  have hgood : Good (waterworksPreset .manyToMany) (idle "a" "a--b" "c" "b--c") [] := Good.nil
  have hview := hgood.shows hvalid
  obtain ⟨answer, hanswer, _⟩ := pass_gives hwell hvalid hgood
  refine ⟨waterworks_accepted _, waterworks_unlimited, hvalid, answer, hanswer, fun hall => ?_⟩
  have hid : ∀ source target, (∃ o, between answer.1 source target = [o]) →
      ∃ o ∈ answer.1, o.source = source ∧ o.id = (feeding.edge "feeds" source target).id := by
    rintro source target ⟨o, ho⟩
    obtain ⟨hmem, rfl, rfl⟩ := mem_of_between ho
    obtain ⟨m, hm⟩ := derives_of_mem_pass hwell hvalid hgood hanswer hmem
    obtain rfl : m = feeding := List.mem_singleton.mp hm.mapping
    have hshape := congrArg DerivedEdge.id hm.shape
    exact ⟨o, hmem, rfl, hshape⟩
  obtain ⟨e, he, hesource, heid⟩ := hid "a" "b--c"
    (hall _ _ (feeding_derives hview rfl rfl rfl rfl rfl))
  obtain ⟨f, hf, hfsource, hfid⟩ := hid "a--b" "c"
    (hall _ _ (feeding_derives hview rfl rfl rfl rfl rfl))
  -- one edge would lead from both nodes
  have hsame : e = f := eq_of_id_of_pass hvalid hanswer he hf (heid.trans hfid.symm)
  rw [hsame, hfsource] at hesource
  exact absurd hesource (by decide)

theorem pass_complete_idle :
    Audit.validate (waterworks .manyToMany) = .ok (.ok (waterworksPreset .manyToMany)) ∧
      Unlimited (waterworksPreset .manyToMany) ∧
      (idle "p" "q" "t" "u").Valid (waterworksPreset .manyToMany) ∧
      ∃ before answer,
        afterPasses (waterworksPreset .manyToMany) (idle "p" "q" "t" "u") 1 = .ok before ∧
        pass (waterworksPreset .manyToMany) (idle "p" "q" "t" "u") before.1 = .ok answer ∧
        (∃ o, between answer.1 "p" "t" = [o]) ∧ (∃ o, between answer.1 "p" "u" = [o]) ∧
        (∃ o, between answer.1 "q" "t" = [o]) ∧ ∃ o, between answer.1 "q" "u" = [o] := by
  have hvalid : (idle "p" "q" "t" "u").Valid (waterworksPreset .manyToMany) := plumb_valid _ _
  obtain ⟨before, answer, hbefore, hanswer, hall⟩ :=
    pass_complete (waterworks_accepted .manyToMany) waterworks_unlimited hvalid 1
  have hwell := Audit.wellFormed_of_validate (waterworks_accepted .manyToMany)
  obtain ⟨_, hsame, hgood⟩ := afterPasses_gives hwell hvalid 1
  obtain rfl := Except.ok.inj (hbefore.symm.trans hsame)
  have hview := hgood.shows hvalid
  have hplain : ∀ key ∈ (idle "p" "q" "t" "u").nodes.keys, '-' ∉ key.toList := by decide +kernel
  refine ⟨waterworks_accepted _, waterworks_unlimited, hvalid, before, answer, hbefore, hanswer, ?_⟩
  refine ⟨?_, ?_, ?_, ?_⟩
  · exact (hall _ _ (feeding_derives hview rfl rfl rfl rfl rfl)).2 hplain
  · exact (hall _ _ (feeding_derives hview rfl rfl rfl rfl rfl)).2 hplain
  · exact (hall _ _ (feeding_derives hview rfl rfl rfl rfl rfl)).2 hplain
  · exact (hall _ _ (feeding_derives hview rfl rfl rfl rfl rfl)).2 hplain

end Inference

end GraphWorkbench

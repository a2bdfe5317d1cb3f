import GraphWorkbench.Inference.Engine
import GraphWorkbench.Proofs.Inference.View
/-!
What a derived edge owes to the document. An edge is `Admissible` beside the authored edges of a
document, and a list of edges is `Good` when all of them are and no two join the same nodes the same
way. Each pass turns a good list into a good one, and none of them meets a fault.
-/
namespace GraphWorkbench

open Outcome

theorem Preset.exists_ruling {p : Preset} {id : String} (h : id ∈ p.relationshipIds) :
    ∃ r, p.ruling? id = some r := by
  obtain ⟨r, hr, rfl⟩ := List.mem_map.mp h
  apply Option.isSome_iff_exists.mp
  exact List.find?_isSome.mpr ⟨r, List.mem_reverse.mpr hr, beq_self_eq_true _⟩

theorem Severity.rank_injective : Function.Injective Severity.rank := by
  intro s t h
  cases s <;> cases t <;> simp_all [Severity.rank]

/-- The mapping is for the nodes of a type, by its name or by its class. -/
def Mapping.Applies (m : Mapping) (t : NodeType) : Prop :=
  m.sourceType = some t.id ∨ ∃ c, m.ontologyClass = some c ∧ t.ontologyClass = some c

/-- The derivation takes nodes of a type as targets. -/
def Derivation.Takes (rule : Derivation) (typeId : String) : Prop :=
  ∀ types, rule.targetTypes = some types → wildcard ∈ types ∨ typeId ∈ types

namespace Inference

variable {p : Preset} {d : Document} {v : GraphView}

/-- No authored edge of the relationship joins the same nodes, nor the other way round unless the
relationship is directed. -/
def Unclaimed (d : Document) (r : Relationship) (e : Edge) : Prop :=
  ∀ o ∈ d.edges.values, o.typeId = r.id →
    ¬ (o.source = e.source ∧ o.target = e.target) ∧
    (r.directionality ≠ .directed → ¬ (o.source = e.target ∧ o.target = e.source))

/-- The edge comes from the mapping: it is for the type of the source, takes the type of the target
and derives the relationship. -/
structure ComesFrom (p : Preset) (d : Document) (e : Edge) (m : Mapping) : Prop where
  named : e.properties.get? "mappingId" = some (.str m.id)
  derives : m.rule.derived = some e.typeId
  source : ∃ n t, d.nodes.get? e.source = some n ∧ p.governing? n.typeId = some t ∧ m.Applies t
  target : ∃ n, d.nodes.get? e.target = some n ∧ m.rule.Takes n.typeId

structure Admissible (p : Preset) (d : Document) (e : Edge) : Prop where
  inferred : e.inferred = true
  apart : e.source ≠ e.target
  mapped : ∃ m ∈ p.mappings, ComesFrom p d e m
  joined : ∃ r, p.ruling? e.typeId = some r ∧ p.Joins d.nodes r e ∧ Unclaimed d r e

def DistinctEnds (a b : DerivedEdge) : Prop := ¬ (a.source = b.source ∧ a.target = b.target)

structure Good (p : Preset) (d : Document) (edges : List DerivedEdge) : Prop where
  admissible : ∀ e ∈ edges, Admissible p d e.toEdge
  distinct : edges.Pairwise DistinctEnds

section Good

variable {edges edges' : List DerivedEdge}

theorem DistinctEnds.symm {a b : DerivedEdge} (h : DistinctEnds a b) : DistinctEnds b a :=
  fun ⟨hsource, htarget⟩ => h ⟨hsource.symm, htarget.symm⟩

theorem Good.nil : Good p d [] := ⟨by simp, .nil⟩

theorem Good.perm (h : Good p d edges) (same : edges'.Perm edges) : Good p d edges' :=
  ⟨fun e he => h.admissible e (same.mem_iff.mp he),
    (same.pairwise_iff DistinctEnds.symm).mpr h.distinct⟩

theorem Good.sublist (h : Good p d edges) (part : edges'.Sublist edges) : Good p d edges' :=
  ⟨fun e he => h.admissible e (part.subset he), h.distinct.sublist part⟩

theorem Good.connects (h : Good p d edges) : ∀ e ∈ edges.map DerivedEdge.toEdge, d.Connects e := by
  intro e he
  obtain ⟨derived, hderived, rfl⟩ := List.mem_map.mp he
  obtain ⟨r, _, hjoins, _⟩ := (h.admissible derived hderived).joined
  exact hjoins.connects

/-- The edge that is put last takes the place of the one that joins the same nodes. -/
theorem Good.put {h : Harvest} {e : DerivedEdge} (good : Good p d h.edges)
    (admissible : Admissible p d e.toEdge) : Good p d (h.put e).edges := by
  have hrest : Good p d (h.edges.filter fun o => !(o.source == e.source && o.target == e.target)) :=
    good.sublist List.filter_sublist
  refine ⟨?_, ?_⟩
  · intro o ho
    rcases List.mem_append.mp ho with hold | hnew
    · exact hrest.admissible o hold
    · exact List.mem_singleton.mp hnew ▸ admissible
  · refine List.pairwise_append.mpr ⟨hrest.distinct, List.pairwise_singleton _ _, ?_⟩
    intro o ho e' he'
    obtain rfl := List.mem_singleton.mp he'
    have hother := (List.mem_filter.mp ho).2
    rintro ⟨hsource, htarget⟩
    simp [hsource, htarget] at hother

end Good

section Harvest

variable {n : Node} {m : Mapping} {h : Harvest}

theorem mem_mappingsFor {t : NodeType} (governs : p.governing? n.typeId = some t) :
    m ∈ mappingsFor p n.typeId ↔ m ∈ p.mappings ∧ m.Applies t := by
  have hclass : classOf p n.typeId = t.ontologyClass := by rw [classOf, governs]; rfl
  have hid : t.id = n.typeId := Preset.id_of_governing? governs
  unfold mappingsFor Inference.mappings Mapping.Applies
  rw [List.mem_filter, List.mem_mergeSort, hclass, hid, Bool.or_eq_true, Bool.and_eq_true,
    beq_iff_eq, beq_iff_eq, Option.isSome_iff_exists]
  refine and_congr_right fun _ => or_congr_right ?_
  constructor
  · rintro ⟨⟨c, hc⟩, hsame⟩
    exact ⟨c, hc, hsame.symm.trans hc⟩
  · rintro ⟨c, hc, hsame⟩
    exact ⟨⟨c, hc⟩, hc.trans hsame.symm⟩

theorem known_eq_ok {α : Type} {key : String} {x : Option α} {a : α} :
    known key x = .ok a ↔ x = some a := by
  unfold known
  split <;> simp

theorem typeIdOf_eq_ok {key typeId : String} :
    typeIdOf d key = .ok typeId ↔ ∃ other, d.nodes.get? key = some other ∧ other.typeId = typeId := by
  unfold typeIdOf
  cases hother : d.nodes.get? key <;> simp [known, Except.map]

theorem typeIdOf_eq {key : String} (found : d.nodes.get? key = some n) :
    typeIdOf d key = .ok n.typeId :=
  typeIdOf_eq_ok.mpr ⟨n, found, rfl⟩

theorem takesType_iff {rule : Derivation} {typeId : String} :
    takesType rule.targetTypes typeId = true ↔ rule.Takes typeId := by
  unfold takesType Derivation.Takes
  cases rule.targetTypes with
  | none => simp
  | some types => simp [declares]

theorem targetsOf_gives (hv : v.Shows d) (known : d.nodes.has n.id = true)
    (hm : m.WellFormed p) :
    Gives (targetsOf d v n m) fun ts => ∀ t ∈ ts,
      t ≠ n.id ∧ ∃ target, d.nodes.get? t = some target ∧ m.rule.Takes target.typeId := by
  unfold targetsOf
  refine (hv.targets_gives known hm.rule).bind fun ts hts => Gives.filterM ?_
  intro t ht
  obtain ⟨target, htarget⟩ := Table.has_iff_exists.mp (hts t ht)
  by_cases hself : (t == n.id) = true
  · rw [if_pos hself]
    exact Gives.ok (by simp)
  · rw [if_neg hself, typeIdOf_eq htarget]
    refine Gives.ok fun htakes => ⟨by simpa using hself, target, htarget, takesType_iff.mp htakes⟩

theorem isAuthored_eq_false_iff {r : Relationship} {e : Edge} :
    isAuthored d r e.source e.target = false ↔ Unclaimed d r e := by
  unfold isAuthored Unclaimed
  rw [List.any_eq_false]
  refine forall₂_congr fun o _ => ?_
  by_cases htype : o.typeId = r.id <;> simp [htype]

/-- What is known when edges of a mapping are derived for a node. -/
structure Deriving (p : Preset) (d : Document) (n : Node) (m : Mapping) (r : Relationship)
    (t : NodeType) : Prop where
  node : d.nodes.get? n.id = some n
  type : p.governing? n.typeId = some t
  mapping : m ∈ p.mappings
  applies : m.Applies t
  derives : m.rule.derived = some r.id
  rules : p.ruling? r.id = some r

theorem deriveEdge_gives {r : Relationship} {t : NodeType} {target : String}
    (hd : d.Valid p) (good : Good p d h.edges) (hderiving : Deriving p d n m r t)
    (apart : target ≠ n.id)
    (taken : ∃ other, d.nodes.get? target = some other ∧ m.rule.Takes other.typeId) :
    Gives (deriveEdge p d n m r t h target) fun h' => Good p d h'.edges := by
  obtain ⟨other, hother, htakes⟩ := taken
  obtain ⟨otherType, hotherType, _⟩ := hd.nodes other (Table.mem_values_of_get? hother)
  unfold deriveEdge
  rw [typeIdOf_eq hother, ok_bind, hotherType]
  simp only [known, ok_bind]
  by_cases hrefused : (!r.fits t otherType || isAuthored d r n.id target) = true
  · rw [if_pos hrefused]
    exact Gives.ok good
  · rw [if_neg hrefused]
    simp only [Bool.not_eq_true, Bool.or_eq_false_iff, Bool.not_eq_false'] at hrefused
    obtain ⟨hfits, hauthored⟩ := hrefused
    -- the edge has passed the same check of its ends as an authored one, and finds them free
    apply Gives.ok
    apply good.put
    refine ⟨rfl, apart.symm, ⟨m, hderiving.mapping, ?_⟩, r, hderiving.rules, ?_, ?_⟩
    · exact ⟨rfl, hderiving.derives, ⟨n, t, hderiving.node, hderiving.type, hderiving.applies⟩,
        other, hother, htakes⟩
    · exact ⟨n, other, t, otherType, hderiving.node, hother, hderiving.type, hotherType,
        Relationship.fits_iff.mp hfits⟩
    · exact isAuthored_eq_false_iff.mp hauthored

theorem edges_describe (h : Harvest) (node : String) (attributes : Table Json) :
    (h.describe node attributes).edges = h.edges := by
  unfold Harvest.describe
  split <;> rfl

theorem applyMapping_gives (hp : p.WellFormed) (hd : d.Valid p) (hv : v.Shows d)
    (hn : n ∈ d.nodes.values) (hm : m ∈ mappingsFor p n.typeId) (good : Good p d h.edges) :
    Gives (applyMapping p d v n h m) fun h' => Good p d h'.edges := by
  obtain ⟨t, htype, _⟩ := hd.nodes n hn
  obtain ⟨hmapping, happlies⟩ := (mem_mappingsFor htype).mp hm
  have hwell := hp.mappings m hmapping
  have hnode := hd.get?_node hn
  have hknown : d.nodes.has n.id = true := Table.has_iff_exists.mpr ⟨n, hnode⟩
  unfold applyMapping
  refine (targetsOf_gives hv hknown hwell).bind fun ts hts => ?_
  by_cases hempty : ts.isEmpty = true
  · rw [if_pos hempty]
    exact Gives.ok good
  · rw [if_neg hempty]
    have hdescribed : Good p d (h.describe n.id m.rule.attributes).edges :=
      edges_describe h n.id m.rule.attributes ▸ good
    cases hderived : m.rule.derived with
    | none => exact Gives.ok hdescribed
    | some name =>
      obtain ⟨r, hr⟩ := Preset.exists_ruling (hwell.rule.derived name hderived)
      have hid : r.id = name := Preset.id_of_ruling? hr
      have hderiving : Deriving p d n m r t :=
        ⟨hnode, htype, hmapping, happlies, hid ▸ hderived, hid.symm ▸ hr⟩
      simp only [hr, htype, known, ok_bind]
      refine Gives.foldlM (fun target htarget h' hgood => ?_) hdescribed
      obtain ⟨hapart, htaken⟩ := hts target htarget
      exact deriveEdge_gives hd hgood hderiving hapart htaken

theorem harvest_gives (hp : p.WellFormed) (hd : d.Valid p) (hv : v.Shows d) :
    Gives (harvest p d v) fun h => Good p d h.edges := by
  refine Gives.foldlM (fun n hn h good => ?_) Good.nil
  exact Gives.foldlM (fun m hm h' good' => applyMapping_gives hp hd hv hn hm good') good

end Harvest

section Passes

variable {edges candidates : List DerivedEdge}

/-- An edge may be kept under an id that is taken, which only happens when two mappings or nodes
have ids that run together; the edge that was kept before is then gone. -/
theorem Good.put_kept {kept : Table DerivedEdge} {e : DerivedEdge} {rest : List DerivedEdge}
    (good : Good p d (kept.values ++ e :: rest)) :
    Good p d ((kept.put e.id e).values ++ rest) := by
  cases hhas : kept.has e.id with
  | false =>
    rw [Table.values_put_new hhas, List.append_assoc]
    exact good
  | true =>
    obtain ⟨old, hold⟩ := Table.has_iff_exists.mp hhas
    obtain ⟨before, after, hentries⟩ := Table.exists_at hold
    have hvalues : kept.values = before.map Prod.snd ++ old :: after.map Prod.snd := by
      rw [Table.values, hentries, List.map_append, List.map_cons]
    have hput : (kept.put e.id e).values = before.map Prod.snd ++ e :: after.map Prod.snd := by
      rw [Table.values, Table.entries_put_at hentries, List.map_append, List.map_cons]
    rw [hvalues] at good
    rw [hput]
    -- without the old edge, the new one only moves to its place
    have hless : Good p d (before.map Prod.snd ++ after.map Prod.snd ++ e :: rest) := by
      refine good.sublist (List.Sublist.append_right ?_ _)
      exact List.Sublist.append_left (List.sublist_cons_self _ _) _
    refine hless.perm ?_
    rw [List.append_assoc, List.append_assoc, List.cons_append]
    exact List.Perm.append_left _ List.perm_middle.symm

/-- Every candidate is kept or dropped, since its relationship is known. -/
theorem keepWithin_gives (good : Good p d candidates) :
    Gives (keepWithin p d candidates) fun kept => Good p d kept.values := by
  have hstart : Good p d ((Table.empty : Table DerivedEdge).values ++ candidates) := good
  refine Gives.imp (Gives.foldlM_rest
    (P := fun rest (kept : Table DerivedEdge) => Good p d (kept.values ++ rest))
    (fun e rest kept hgood => ?_) hstart) fun kept hgood => ?_
  · obtain ⟨r, hr, _⟩ := (hgood.admissible e (by simp)).joined
    have hruling : p.ruling? e.relationship = some r := hr
    have hdropped : Good p d (kept.values ++ rest) :=
      hgood.sublist (List.Sublist.append_left (List.sublist_cons_self _ _) _)
    rw [hruling]
    simp only [known, ok_bind]
    split
    next => exact Gives.ok hgood.put_kept
    next f hcheck => exact absurd hcheck checkMultiplicity_ne_fault
    next => exact Gives.ok hdropped
  · rwa [List.append_nil] at hgood

theorem pass_gives (hp : p.WellFormed) (hd : d.Valid p) (good : Good p d edges) :
    Gives (pass p d edges) fun answer => Good p d answer.1 := by
  have hview : (GraphView.ofDocument p d (edges.map DerivedEdge.toEdge)).Shows d :=
    GraphView.shows_ofDocument hd good.connects
  -- harvested edges are sorted, thinned out and sorted again, which keeps them good
  refine (harvest_gives hp hd hview).bind fun h hgood => ?_
  have hsorted := hgood.perm (List.mergeSort_perm h.edges ranksBefore)
  refine (keepWithin_gives hsorted).bind fun kept hkept => Gives.ok ?_
  exact hkept.perm (List.mergeSort_perm _ _)

/-- The graver edge stands first, and of equally grave ones the one of the lower id. -/
def Precedes (a b : DerivedEdge) : Prop :=
  a.severity.rank < b.severity.rank ∨ (a.severity = b.severity ∧ a.id ≤ b.id)

theorem graver_iff {a b : DerivedEdge} : graver a b = true ↔ Precedes a b := by
  simp [graver, Precedes]

theorem Precedes.trans {a b c : DerivedEdge} (hab : Precedes a b) (hbc : Precedes b c) :
    Precedes a c := by
  rcases hab with hab | ⟨hab, hidab⟩ <;> rcases hbc with hbc | ⟨hbc, hidbc⟩
  · exact .inl (Nat.lt_trans hab hbc)
  · exact .inl (hbc ▸ hab)
  · exact .inl (hab ▸ hbc)
  · exact .inr ⟨hab.trans hbc, String.le_trans hidab hidbc⟩

theorem Precedes.total (a b : DerivedEdge) : Precedes a b ∨ Precedes b a := by
  rcases Nat.lt_trichotomy a.severity.rank b.severity.rank with hlt | heq | hgt
  · exact .inl (.inl hlt)
  · have hsame := Severity.rank_injective heq
    rcases String.le_total a.id b.id with hle | hge
    · exact .inl (.inr ⟨hsame, hle⟩)
    · exact .inr (.inr ⟨hsame.symm, hge⟩)
  · exact .inr (.inl hgt)

theorem pairwise_precedes (edges : List DerivedEdge) :
    (edges.mergeSort graver).Pairwise Precedes := by
  have htrans : ∀ a b c, graver a b = true → graver b c = true → graver a c = true := by
    intro a b c hab hbc
    exact graver_iff.mpr ((graver_iff.mp hab).trans (graver_iff.mp hbc))
  have htotal : ∀ a b, (graver a b || graver b a) = true := by
    intro a b
    rw [Bool.or_eq_true, graver_iff, graver_iff]
    exact Precedes.total a b
  exact (List.pairwise_mergeSort htrans htotal edges).imp graver_iff.mp

/-- What the passes come to: good edges in the order of their gravity. -/
structure Settled (p : Preset) (d : Document) (i : Inference) : Prop where
  good : Good p d i.edges
  ordered : i.edges.Pairwise Precedes

theorem settled_of_good (good : Good p d edges) {attributes : Attributes} {passes : Nat}
    {converged : Bool} :
    Settled p d ⟨edges.mergeSort graver, attributes, passes, converged⟩ :=
  ⟨good.perm (List.mergeSort_perm _ _), pairwise_precedes edges⟩

theorem settle_gives (hp : p.WellFormed) (hd : d.Valid p) {left done : Nat}
    {attributes : Attributes} (good : Good p d edges) :
    Gives (settle p d left done edges attributes) (Settled p d) := by
  -- the edges of a pass are good, so the graph of the next pass shows the document again
  induction left generalizing done edges attributes with
  | zero => exact Gives.ok (settled_of_good good)
  | succ left ih =>
    rw [settle]
    refine (pass_gives hp hd good).bind fun answer hanswer => ?_
    obtain ⟨edges', attributes'⟩ := answer
    by_cases hsame : edges' = edges ∧ sameAttributes attributes' attributes = true
    · simp only [hsame, and_self, if_true]
      exact Gives.ok (settled_of_good good)
    · simp only [hsame, if_false]
      exact ih hanswer

theorem recompute_gives (hp : p.WellFormed) (hd : d.Valid p) (passes : Int) :
    Gives (recompute p d passes) (Settled p d) := by
  unfold recompute
  split
  · exact settle_gives hp hd Good.nil
  · exact Gives.ok ⟨Good.nil, .nil⟩

end Passes

end Inference

end GraphWorkbench

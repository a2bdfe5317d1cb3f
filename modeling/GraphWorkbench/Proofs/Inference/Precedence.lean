import GraphWorkbench.Proofs.Document.Reachable
import GraphWorkbench.Proofs.Inference.Gathered
import Mathlib.Data.List.Nodup
/-!
Which mapping prevails. Mappings are taken by priority and, where that is equal, in the order of the
preset; of those that derive an edge between two nodes, or that tell an attribute of a node, the last
one prevails.
-/
namespace GraphWorkbench

open Outcome

universe u

section Lists

variable {α β : Type u} {R : α → α → Prop} {xs : List α} {x y : α} {f : α → List β} {b : β}

/-- The last item of lists one after another comes from the last of them that has any. -/
theorem exists_split_of_getLast?_flatMap (h : (xs.flatMap f).getLast? = some b) :
    ∃ before x after, xs = before ++ x :: after ∧ (f x).getLast? = some b ∧
      ∀ y ∈ after, f y = [] := by
  induction xs with
  | nil => exact nomatch h
  | cons x rest ih =>
    rw [List.flatMap_cons, List.getLast?_append] at h
    cases hrest : (rest.flatMap f).getLast? with
    | some c =>
      rw [hrest] at h
      obtain ⟨before, x', after, hsplit, hlast, hnone⟩ := ih (hrest.trans h)
      exact ⟨x :: before, x', after, by rw [hsplit, List.cons_append], hlast, hnone⟩
    | none =>
      rw [hrest, Option.none_or] at h
      have hempty := List.flatMap_eq_nil_iff.mp (List.getLast?_eq_none_iff.mp hrest)
      exact ⟨[], x, rest, rfl, h, hempty⟩

/-- Among items in order, the last one that has any is above all others that have any. -/
theorem exists_greatest_of_getLast?_flatMap (sorted : xs.Pairwise R)
    (h : (xs.flatMap f).getLast? = some b) :
    ∃ x ∈ xs, (f x).getLast? = some b ∧ ∀ y ∈ xs, f y ≠ [] → y = x ∨ R y x := by
  obtain ⟨before, x, after, rfl, hlast, hnone⟩ := exists_split_of_getLast?_flatMap h
  refine ⟨x, by simp, hlast, ?_⟩
  intro y hy hany
  rcases List.mem_append.mp hy with hbefore | hrest
  · exact .inr ((List.pairwise_append.mp sorted).2.2 y hbefore x List.mem_cons_self)
  · rcases List.mem_cons.mp hrest with rfl | hafter
    · exact .inl rfl
    · exact absurd (hnone y hafter) hany

/-- Of two items of a list, one stands before the other. -/
theorem pair_sublist_or (hx : x ∈ xs) (hy : y ∈ xs) (apart : x ≠ y) :
    [x, y].Sublist xs ∨ [y, x].Sublist xs := by
  obtain ⟨before, after, rfl⟩ := List.append_of_mem hx
  rcases List.mem_append.mp hy with hbefore | hrest
  · have hpair : [y] ++ [x] |>.Sublist (before ++ x :: after) :=
      (List.singleton_sublist.mpr hbefore).append (List.singleton_sublist.mpr List.mem_cons_self)
    exact .inr hpair
  · have hafter : y ∈ after := (List.mem_cons.mp hrest).resolve_left apart.symm
    have hpair : [x, y].Sublist (x :: after) := (List.singleton_sublist.mpr hafter).cons_cons x
    exact .inl (hpair.trans (List.sublist_append_right before _))

/-- Where no item comes twice, no two stand each before the other. -/
theorem not_pair_sublist_swap (distinct : xs.Nodup) (h : [x, y].Sublist xs) :
    ¬ [y, x].Sublist xs := by
  intro h'
  obtain ⟨front, back, rfl, hx, hy⟩ := List.cons_sublist_iff.mp h
  obtain ⟨front', back', hsplit, hy', hx'⟩ := List.cons_sublist_iff.mp h'
  have hdisjoint := (List.nodup_append.mp distinct).2.2
  have hback : y ∈ back := List.singleton_sublist.mp hy
  have hback' : x ∈ back' := List.singleton_sublist.mp hx'
  -- wherever the second split falls, one of the two items is on both sides of the first
  rcases List.append_eq_append_iff.mp hsplit with ⟨mid, rfl, rfl⟩ | ⟨mid, rfl, rfl⟩
  · exact hdisjoint x hx x (List.mem_append_right _ hback') rfl
  · exact hdisjoint y (List.mem_append_left _ hy') y hback rfl

end Lists

namespace Inference

variable {p : Preset} {d : Document} {v : GraphView} {n : Node} {m m' : Mapping} {e : DerivedEdge}
  {key : String} {value : Json}

/-- The first mapping is taken before the second: it has the lower priority, or the same and stands
before the other in the preset. -/
def Before (p : Preset) (m m' : Mapping) : Prop :=
  m.priority < m'.priority ∨ (m.priority = m'.priority ∧ [m, m'].Sublist p.mappings)

theorem nodup_mappings (hp : p.WellFormed) : p.mappings.Nodup :=
  List.Nodup.of_map _ hp.mappings_unique

theorem Before.asymm (hp : p.WellFormed) (h : Before p m m') : ¬ Before p m' m := by
  rintro (hlower | ⟨hsame, hfirst⟩)
  · rcases h with hlower' | ⟨hsame', _⟩ <;> omega
  · rcases h with hlower' | ⟨_, hfirst'⟩
    · omega
    · exact not_pair_sublist_swap (nodup_mappings hp) hfirst' hfirst

/-- The mappings are taken in order. -/
theorem pairwise_before (hp : p.WellFormed) : (mappings p).Pairwise (Before p) := by
  -- the comparison that the mappings are sorted by
  let le (a b : Mapping) : Bool := a.priority ≤ b.priority
  have htrans : ∀ a b c, le a b = true → le b c = true → le a c = true := by
    simp only [le, decide_eq_true_eq]
    omega
  have htotal : ∀ a b, (le a b || le b a) = true := by
    simp only [le, Bool.or_eq_true, decide_eq_true_eq]
    omega
  have hsorted : (mappings p).Pairwise fun a b => le a b = true :=
    List.pairwise_mergeSort htrans htotal p.mappings
  have hperm : (mappings p).Perm p.mappings := List.mergeSort_perm _ _
  have hdistinct : (mappings p).Nodup := hperm.nodup_iff.mpr (nodup_mappings hp)
  apply List.pairwise_iff_forall_sublist.mpr
  intro a b hab
  have hle : a.priority ≤ b.priority := by
    simpa [le] using List.pairwise_iff_forall_sublist.mp hsorted hab
  rcases Int.lt_or_eq_of_le hle with hlower | hsame
  · exact .inl hlower
  · have ha : a ∈ p.mappings := hperm.mem_iff.mp (hab.subset (by simp))
    have hb : b ∈ p.mappings := hperm.mem_iff.mp (hab.subset (by simp))
    have hapart : a ≠ b := by simpa using hdistinct.sublist hab
    -- sorting by priority keeps two of one priority in the order of the preset
    rcases pair_sublist_or ha hb hapart with hfirst | hfirst
    · exact .inr ⟨hsame, hfirst⟩
    · have hturned : [b, a].Sublist (mappings p) :=
        List.pair_sublist_mergeSort htrans htotal (by simp [hsame]) hfirst
      exact absurd hturned (not_pair_sublist_swap hdistinct hab)

theorem pairwise_mappingsFor (hp : p.WellFormed) (typeId : String) :
    (mappingsFor p typeId).Pairwise (Before p) :=
  (pairwise_before hp).sublist List.filter_sublist

/-- No other mapping that passes a test is taken after this one. -/
def Prevails (p : Preset) (test : Mapping → Prop) (m : Mapping) : Prop :=
  test m ∧ ∀ m', test m' → m' = m ∨ Before p m' m

theorem Prevails.unique {test : Mapping → Prop} (hp : p.WellFormed) (h : Prevails p test m)
    (h' : Prevails p test m') : m = m' := by
  rcases h'.2 m h.1 with hsame | hbefore
  · exact hsame
  · rcases h.2 m' h'.1 with hsame | hbefore'
    · exact hsame.symm
    · exact absurd hbefore' (hbefore.asymm hp)

section Edges

/-- Of the mappings that derive an edge between the same nodes, the one whose edge is gathered
prevails. -/
theorem prevails_of_mem_harvest (hp : p.WellFormed) (hd : d.Valid p) (hv : v.Shows d) {h : Harvest}
    (run : harvest p d v = .ok h) (he : e ∈ h.edges) :
    ∃ m, Derives p d v m e ∧ Prevails p (fun m =>
      ∃ o, Derives p d v m o ∧ o.source = e.source ∧ o.target = e.target) m := by
  obtain ⟨m₀, hm₀⟩ := derives_of_mem_harvest hp hd hv run he
  obtain ⟨n, hn, _, hoffered⟩ := hm₀.mem_offers hp hd hv
  have hsource : e.source = n.id := source_of_mem_offers hoffered
  have hlast := (mem_harvest_iff hd hn run hsource).mp he
  obtain ⟨m, hm, hbetween, hgreatest⟩ :=
    exists_greatest_of_getLast?_flatMap (pairwise_mappingsFor hp n.typeId) hlast
  have hderives := derives_of_mem_offers hd hn hm (getLast?_between_offers.mp hbetween).1
  refine ⟨m, hderives, ⟨e, hderives, rfl, rfl⟩, ?_⟩
  rintro m' ⟨o, ho, hosource, hotarget⟩
  obtain ⟨n', hn', hm', hoffered'⟩ := ho.mem_offers hp hd hv
  -- the other edge is offered for the same node, as it has the same source
  have hid : n'.id = n.id :=
    (source_of_mem_offers hoffered').symm.trans (hosource.trans hsource)
  obtain rfl : n' = n := Option.some.inj ((hd.get?_node hn').symm.trans (hid ▸ hd.get?_node hn))
  apply hgreatest m' hm'
  have hmem : o ∈ between (offers p d v n' m') n'.id e.target := by
    simp [between, hoffered', hosource, hsource, hotarget]
  exact List.ne_nil_of_mem hmem

end Edges

section Attributes

/-- The mapping gives a node a value for an attribute: it is for nodes of that type, it finds another
node of a wanted type, and its rule sets the attribute. -/
structure Tells (p : Preset) (d : Document) (v : GraphView) (n : Node) (key : String) (value : Json)
    (m : Mapping) : Prop where
  mapping : m ∈ p.mappings
  applies : ∃ t, p.governing? n.typeId = some t ∧ m.Applies t
  found : ∃ targets, v.targets m.rule n.id = .ok targets ∧ ∃ target ∈ targets, target ≠ n.id ∧
    ∃ other, d.nodes.get? target = some other ∧ m.rule.Takes other.typeId
  sets : m.rule.attributes.get? key = some value

/-- What a mapping has to say about an attribute of a node. -/
def said (d : Document) (v : GraphView) (n : Node) (key : String) (m : Mapping) : List Json :=
  if finds d v n m then (m.rule.attributes.get? key).toList else []

theorem get?_tell {known : Option (Table Json)} :
    (tell d v n known m).bind (·.get? key) =
      (said d v n key m).getLast?.or (known.bind (·.get? key)) := by
  unfold tell said
  cases finds d v n m with
  | false => simp
  | true =>
    cases hempty : m.rule.attributes.isEmpty with
    | true =>
      have hnone : m.rule.attributes.get? key = none := by
        rw [Table.get?, List.isEmpty_iff.mp hempty]
        rfl
      simp [hnone]
    | false =>
      have hknown : (known.getD .empty).get? key = known.bind (·.get? key) := by
        cases known <;> rfl
      rw [Bool.not_false, Bool.and_self, if_pos rfl, if_pos rfl, Option.bind_some, Table.get?_merge,
        hknown]
      cases m.rule.attributes.get? key <;> rfl

/-- An attribute is what the last mapping has to say that says anything. -/
theorem get?_foldl_tell {ms : List Mapping} {known : Option (Table Json)} :
    (ms.foldl (tell d v n) known).bind (·.get? key) =
      (ms.flatMap (said d v n key)).getLast?.or (known.bind (·.get? key)) := by
  -- by induction from the front: what is known so far only counts where no later mapping speaks
  induction ms generalizing known with
  | nil => simp
  | cons m rest ih =>
    let before := known.bind (·.get? key)
    calc ((m :: rest).foldl (tell d v n) known).bind (·.get? key)
      _ = (rest.flatMap (said d v n key)).getLast?.or ((tell d v n known m).bind (·.get? key)) := ih
      _ = (rest.flatMap (said d v n key)).getLast?.or ((said d v n key m).getLast?.or before) := by
        rw [get?_tell]
      _ = ((m :: rest).flatMap (said d v n key)).getLast?.or before := by
        rw [List.flatMap_cons, List.getLast?_append, Option.or_assoc]

theorem finds_iff (hp : p.WellFormed) (hd : d.Valid p) (hv : v.Shows d) (hn : n ∈ d.nodes.values)
    (hm : m ∈ p.mappings) : finds d v n m = true ↔
      ∃ targets, v.targets m.rule n.id = .ok targets ∧ ∃ target ∈ targets, target ≠ n.id ∧
        ∃ other, d.nodes.get? target = some other ∧ m.rule.Takes other.typeId := by
  have hknown : d.nodes.has n.id = true := Table.has_iff_exists.mpr ⟨n, hd.get?_node hn⟩
  obtain ⟨targets, hrun, _⟩ := targetsOf_gives hv hknown (hp.mappings m hm)
  have hany : finds d v n m = true ↔ ∃ target, target ∈ targets := by
    cases targets <;> simp [finds, hrun]
  rw [hany]
  constructor
  · rintro ⟨target, htarget⟩
    obtain ⟨⟨found, hfound, hmem⟩, hapart, hother⟩ := (mem_targetsOf hrun).mp htarget
    exact ⟨found, hfound, target, hmem, hapart, hother⟩
  · rintro ⟨found, hfound, target, hmem, hapart, hother⟩
    exact ⟨target, (mem_targetsOf hrun).mpr ⟨⟨found, hfound, hmem⟩, hapart, hother⟩⟩

theorem tells_iff (hp : p.WellFormed) (hd : d.Valid p) (hv : v.Shows d) (hn : n ∈ d.nodes.values) :
    Tells p d v n key value m ↔
      m ∈ mappingsFor p n.typeId ∧ (said d v n key m).getLast? = some value := by
  obtain ⟨t, hgoverned, _⟩ := hd.nodes n hn
  rw [mem_mappingsFor hgoverned]
  have hsaid : (said d v n key m).getLast? = some value ↔
      finds d v n m = true ∧ m.rule.attributes.get? key = some value := by
    unfold said
    cases finds d v n m <;> cases m.rule.attributes.get? key <;> simp
  constructor
  · intro h
    obtain ⟨t', hgoverned', happlies⟩ := h.applies
    obtain rfl := Option.some.inj (hgoverned.symm.trans hgoverned')
    exact ⟨⟨h.mapping, happlies⟩,
      hsaid.mpr ⟨(finds_iff hp hd hv hn h.mapping).mpr h.found, h.sets⟩⟩
  · rintro ⟨⟨hm, happlies⟩, hvalue⟩
    obtain ⟨hfinds, hsets⟩ := hsaid.mp hvalue
    exact ⟨hm, ⟨t, hgoverned, happlies⟩, (finds_iff hp hd hv hn hm).mp hfinds, hsets⟩

theorem attribute_eq_getLast? (hd : d.Valid p) {h : Harvest} (run : harvest p d v = .ok h)
    (hn : n ∈ d.nodes.values) : (h.attributes.get? n.id).bind (·.get? key) =
      ((mappingsFor p n.typeId).flatMap (said d v n key)).getLast? := by
  have htold : h.attributes.get? n.id = (mappingsFor p n.typeId).foldl (tell d v n) none := by
    rw [attributes_of_harvest hd run, hd.get?_node hn, Option.bind_some, told]
  calc (h.attributes.get? n.id).bind (·.get? key)
    _ = ((mappingsFor p n.typeId).foldl (tell d v n) none).bind (·.get? key) := by rw [htold]
    _ = ((mappingsFor p n.typeId).flatMap (said d v n key)).getLast?.or none := get?_foldl_tell
    _ = ((mappingsFor p n.typeId).flatMap (said d v n key)).getLast? := Option.or_none

/-- A node has the value for an attribute that the prevailing mapping gives it. -/
theorem attribute_eq_some_iff (hp : p.WellFormed) (hd : d.Valid p) (hv : v.Shows d) {h : Harvest}
    (run : harvest p d v = .ok h) (hn : n ∈ d.nodes.values) :
    (h.attributes.get? n.id).bind (·.get? key) = some value ↔
      ∃ m, Tells p d v n key value m ∧ Prevails p (fun m => ∃ w, Tells p d v n key w m) m := by
  have hforth : ∀ value, (h.attributes.get? n.id).bind (·.get? key) = some value →
      ∃ m, Tells p d v n key value m ∧ Prevails p (fun m => ∃ w, Tells p d v n key w m) m := by
    intro value hvalue
    rw [attribute_eq_getLast? hd run hn] at hvalue
    obtain ⟨m, hm, hsaid, hgreatest⟩ :=
      exists_greatest_of_getLast?_flatMap (pairwise_mappingsFor hp n.typeId) hvalue
    have htells := (tells_iff hp hd hv hn).mpr ⟨hm, hsaid⟩
    refine ⟨m, htells, ⟨value, htells⟩, ?_⟩
    rintro m' ⟨w, hw⟩
    obtain ⟨hm', hsaid'⟩ := (tells_iff hp hd hv hn).mp hw
    exact hgreatest m' hm' (List.ne_nil_of_mem (List.mem_of_getLast? hsaid'))
  refine ⟨hforth value, ?_⟩
  rintro ⟨m, htells, hprevails⟩
  -- there is a value, as this mapping gives one; and it can only be the one of this mapping
  obtain ⟨hm, hsaid⟩ := (tells_iff hp hd hv hn).mp htells
  cases hother : (h.attributes.get? n.id).bind (·.get? key) with
  | none =>
    rw [attribute_eq_getLast? hd run hn, List.getLast?_eq_none_iff] at hother
    have hnone := List.flatMap_eq_nil_iff.mp hother m hm
    simp [hnone] at hsaid
  | some w =>
    obtain ⟨m', htells', hprevails'⟩ := hforth w hother
    obtain rfl := hprevails.unique hp hprevails'
    exact htells'.sets.symm.trans htells.sets

theorem attribute_eq_none_iff (hp : p.WellFormed) (hd : d.Valid p) (hv : v.Shows d) {h : Harvest}
    (run : harvest p d v = .ok h) (hn : n ∈ d.nodes.values) :
    (h.attributes.get? n.id).bind (·.get? key) = none ↔ ∀ m value, ¬ Tells p d v n key value m := by
  rw [attribute_eq_getLast? hd run hn, List.getLast?_eq_none_iff, List.flatMap_eq_nil_iff]
  constructor
  · intro hnone m value htells
    obtain ⟨hm, hsaid⟩ := (tells_iff hp hd hv hn).mp htells
    simp [hnone m hm] at hsaid
  · intro hnone m hm
    cases hsaid : (said d v n key m).getLast? with
    | none => exact List.getLast?_eq_none_iff.mp hsaid
    | some value => exact absurd ((tells_iff hp hd hv hn).mpr ⟨hm, hsaid⟩) (hnone m value)

end Attributes

section Example

/-- A mapping of a candidate by which a host watches what it is linked to and tells who sees to it.
-/
def watchOf (id : String) : Json :=
  .obj [("id", .str id), ("sourceType", .str "host"), ("rule", .obj [("kind", .str "neighbors"),
    ("derivedRelationship", .str "watch"), ("via", .arr [.obj [("relationship", .str "link")]]),
    ("attributes", .obj [("by", .str id)])])]

/-- A candidate with two mappings of one priority for the same hosts. -/
def rivalWatches : Json :=
  .obj [("id", .str "net"), ("name", .str "Net"), ("version", .str "2.0.0"),
    ("nodeTypes", .arr [.obj [("id", .str "host"), ("name", .str "Host"),
      ("style", .obj [("color", .str "#000000")])]]),
    ("relationships", .arr [
      .obj [("id", .str "link"), ("name", .str "Link"), ("sourceTypes", .arr [.str "host"]),
        ("targetTypes", .arr [.str "host"])],
      .obj [("id", .str "watch"), ("name", .str "Watch"), ("sourceTypes", .arr [.str "host"]),
        ("targetTypes", .arr [.str "host"])]]),
    ("behavior", .obj [("enableInference", .bool true)]),
    ("ontologyMappings", .arr [watchOf "night", watchOf "day"])]

def watching (id : String) : Mapping :=
  { id, sourceType := some "host"
    rule := { kind := .neighbors, derived := some "watch", via := [{ relationship := "link" }]
              attributes := .ofEntries [("by", .str id)] } }

def rivalPreset : Preset :=
  { id := "net", name := "Net", version := "2.0.0"
    nodeTypes := [{ id := "host", name := "Host", style := { color := "#000000" } }]
    relationships := [
      { id := "link", name := "Link", sourceTypes := ["host"], targetTypes := ["host"] },
      { id := "watch", name := "Watch", sourceTypes := ["host"], targetTypes := ["host"] }]
    behavior := { enableInference := true }
    mappings := [watching "night", watching "day"] }

theorem rivalWatches_accepted : Audit.validate rivalWatches = .ok (.ok rivalPreset) := by
  decide +kernel

/-- Two mappings of one priority stay in their order. -/
theorem mappings_rivalPreset : mappings rivalPreset = [watching "night", watching "day"] :=
  List.mergeSort_of_pairwise (by decide +kernel)

/-- Two hosts, of which the first is linked to a host. -/
def linkedTo (target : String) : Document :=
  (Store.grown rivalPreset [.addNode { id := "a", typeId := "host" },
    .addNode { id := "b", typeId := "host" },
    .addEdge { id := "link", typeId := "link", source := "a", target }]).document

theorem linkedTo_valid (target : String) : (linkedTo target).Valid rivalPreset :=
  Store.valid_grown _ _

end Example

/-- Of the mappings of an accepted preset that derive an edge between two nodes in a pass on a valid
document, the last one by priority and then by the order of the preset prevails; and so does, of the
mappings that find another node for a node and set an attribute of it, the last one. An attribute
that no such mapping sets has no value. -/
theorem pass_prevailing {candidate : Json} (accepted : Audit.validate candidate = .ok (.ok p))
    (valid : d.Valid p) (passes : Nat) :
    ∃ before answer, afterPasses p d passes = .ok before ∧ pass p d before.1 = .ok answer ∧
      (∀ e ∈ answer.1, ∃ m, m.id = e.mapping ∧ Derives p d (graphOf p d before.1) m e ∧
        Prevails p (fun m => ∃ o, Derives p d (graphOf p d before.1) m o ∧
          o.source = e.source ∧ o.target = e.target) m) ∧
      ∀ n ∈ d.nodes.values, ∀ key,
        (∀ value, (answer.2.get? n.id).bind (·.get? key) = some value ↔
          ∃ m, Tells p d (graphOf p d before.1) n key value m ∧
            Prevails p (fun m => ∃ w, Tells p d (graphOf p d before.1) n key w m) m) ∧
        ((answer.2.get? n.id).bind (·.get? key) = none ↔
          ∀ m value, ¬ Tells p d (graphOf p d before.1) n key value m) := by
  have hwell := Audit.wellFormed_of_validate accepted
  obtain ⟨before, hbefore, hgood⟩ := afterPasses_gives hwell valid passes
  obtain ⟨answer, hanswer, _⟩ := pass_gives hwell valid hgood
  obtain ⟨h, hharvest, hgathered, hattributes⟩ := gathered_of_pass hanswer
  have hview := hgood.shows valid
  refine ⟨before, answer, hbefore, hanswer, ?_, ?_⟩
  · intro e he
    obtain ⟨m, hderives, hprevails⟩ :=
      prevails_of_mem_harvest hwell valid hview hharvest (hgathered e he)
    exact ⟨m, (congrArg DerivedEdge.mapping hderives.shape).symm, hderives, hprevails⟩
  · intro n hn key
    rw [hattributes]
    exact ⟨fun value => attribute_eq_some_iff hwell valid hview hharvest hn,
      attribute_eq_none_iff hwell valid hview hharvest hn⟩

/-- Of two mappings of one priority the later one prevails. -/
theorem pass_prevailing_rivals :
    Audit.validate rivalWatches = .ok (.ok rivalPreset) ∧ (linkedTo "b").Valid rivalPreset ∧
      ∃ before answer, afterPasses rivalPreset (linkedTo "b") 0 = .ok before ∧
        pass rivalPreset (linkedTo "b") before.1 = .ok answer ∧
        answer.1.map (·.mapping) = ["day"] ∧
        (∀ e ∈ answer.1, ∃ m, m.id = e.mapping ∧
          Prevails rivalPreset (fun m => ∃ o,
            Derives rivalPreset (linkedTo "b") (graphOf rivalPreset (linkedTo "b") before.1) m o ∧
              o.source = e.source ∧ o.target = e.target) m) ∧
        (answer.2.get? "a").bind (·.get? "by") = some (.str "day") := by
  obtain ⟨before, answer, hbefore, hanswer, hedges, _⟩ :=
    pass_prevailing rivalWatches_accepted (linkedTo_valid "b") 0
  have hcomputed : (pass rivalPreset (linkedTo "b") []).toOption.map (fun answer =>
      (answer.1.map (·.mapping), (answer.2.get? "a").bind (·.get? "by"))) =
        some (["day"], some (.str "day")) := by
    simp only [pass, harvest, mappingsFor, mappings_rivalPreset]
    decide +kernel
  have hnone : before.1 = [] := congrArg Prod.fst (Except.ok.inj hbefore).symm
  rw [← hnone, hanswer] at hcomputed
  have hsame := Option.some.inj hcomputed
  refine ⟨rivalWatches_accepted, linkedTo_valid "b", before, answer, hbefore, hanswer,
    congrArg Prod.fst hsame, ?_, congrArg Prod.snd hsame⟩
  intro e he
  obtain ⟨m, hid, _, hprevails⟩ := hedges e he
  exact ⟨m, hid, hprevails⟩

/-- A host that is linked to itself alone is what the mappings find for it, and is not told of. -/
theorem pass_untold_loop :
    Audit.validate rivalWatches = .ok (.ok rivalPreset) ∧ (linkedTo "a").Valid rivalPreset ∧
      watching "day" ∈ mappingsFor rivalPreset "host" ∧
      (graphOf rivalPreset (linkedTo "a") []).targets (watching "day").rule "a" = .ok ["a"] ∧
      (watching "day").rule.Takes "host" ∧
      (watching "day").rule.attributes.get? "by" = some (.str "day") ∧
      ∃ answer, pass rivalPreset (linkedTo "a") [] = .ok answer ∧
        (answer.2.get? "a").bind (·.get? "by") = none := by
  have hcomputed : (pass rivalPreset (linkedTo "a") []).toOption.map (fun answer =>
      (answer.2.get? "a").bind (·.get? "by")) = some none := by
    simp only [pass, harvest, mappingsFor, mappings_rivalPreset]
    decide +kernel
  obtain ⟨answer, hanswer, hnone⟩ := Option.map_eq_some_iff.mp hcomputed
  have happlies : watching "day" ∈ mappingsFor rivalPreset "host" := by
    rw [mappingsFor, mappings_rivalPreset]
    decide +kernel
  exact ⟨rivalWatches_accepted, linkedTo_valid "a", happlies, by decide +kernel, nofun,
    by decide +kernel, answer, eq_ok_of_toOption hanswer, hnone⟩

end Inference

end GraphWorkbench

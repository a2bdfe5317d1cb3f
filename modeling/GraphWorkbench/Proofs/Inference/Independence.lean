import GraphWorkbench.Proofs.Inference.Convergence
import GraphWorkbench.Proofs.Inference.Gathered
import GraphWorkbench.Proofs.Inference.Rearranged
/-!
What is derived does not depend on the order of a document. On rearranged documents a pass gathers
the same edges and the same attributes from edges derived before; sorted by rank the edges stand in
one order, and the same of them find room. So the passes go on side by side and end together.
-/
namespace GraphWorkbench.Inference

open Outcome

variable {p : Preset} {d d' : Document} {v v' : GraphView} {n n' : Node} {m : Mapping}
  {e : DerivedEdge} {h h' : Harvest} {key : String}

/-- Two valid documents that are rearranged, with graphs that differ in order only. -/
structure Twins (p : Preset) (d : Document) (v : GraphView) (d' : Document) (v' : GraphView) :
    Prop where
  valid : d.Valid p
  valid' : d'.Valid p
  same : d.Rearranged p d'
  shows : v.Shows d
  shows' : v'.Shows d'
  alike : v.Alike v'

theorem Twins.symm (h : Twins p d v d' v') : Twins p d' v' d v where
  valid := h.valid'
  valid' := h.valid
  same := h.same.symm
  shows := h.shows'
  shows' := h.shows
  alike := h.alike.symm

/-- Nodes of two documents that are the same node. -/
structure Counterparts (d : Document) (n : Node) (d' : Document) (n' : Node) : Prop where
  like : n.Like n'
  mem : n ∈ d.nodes.values
  mem' : n' ∈ d'.nodes.values

theorem Counterparts.symm (h : Counterparts d n d' n') : Counterparts d' n' d n :=
  ⟨h.like.symm, h.mem', h.mem⟩

theorem wellFormed_of_mem_mappingsFor (hp : p.WellFormed) (hd : d.Valid p)
    (hn : n ∈ d.nodes.values) (hm : m ∈ mappingsFor p n.typeId) : m.WellFormed p := by
  obtain ⟨t, ht, _⟩ := hd.nodes n hn
  exact hp.mappings m ((mem_mappingsFor ht).mp hm).1

namespace Twins

section Node

variable {targets targets' : List String}

theorem mem_targetsOf (twins : Twins p d v d' v') (like : n.Like n')
    (run : targetsOf d v n m = .ok targets) (run' : targetsOf d' v' n' m = .ok targets')
    {target : String} (h : target ∈ targets) : target ∈ targets' := by
  obtain ⟨⟨found, hfound, hmem⟩, hapart, hother⟩ := (Inference.mem_targetsOf run).mp h
  obtain ⟨other, hother, htakes⟩ := hother
  obtain ⟨found', hfound', _⟩ := bind_eq_ok.mp run'
  obtain ⟨other', hother', hlike⟩ := twins.same.nodes.exists_of_get? hother
  have hagree := twins.alike.targets hfound (like.id ▸ hfound')
  refine (Inference.mem_targetsOf run').mpr ⟨⟨found', hfound', (hagree target).mpr hmem⟩, ?_, ?_⟩
  · rw [like.id]
    exact hapart
  · exact ⟨other', hother', hlike.typeId ▸ htakes⟩

theorem targetsOf_agree (twins : Twins p d v d' v') (hm : m.WellFormed p)
    (nodes : Counterparts d n d' n') :
    ∃ targets targets', targetsOf d v n m = .ok targets ∧ targetsOf d' v' n' m = .ok targets' ∧
      GraphView.Agree targets targets' := by
  have hknown := Table.has_iff_exists.mpr ⟨n, twins.valid.get?_node nodes.mem⟩
  have hknown' := Table.has_iff_exists.mpr ⟨n', twins.valid'.get?_node nodes.mem'⟩
  obtain ⟨targets, hrun, _⟩ := targetsOf_gives twins.shows hknown hm
  obtain ⟨targets', hrun', _⟩ := targetsOf_gives twins.shows' hknown' hm
  refine ⟨targets, targets', hrun, hrun', fun target => ⟨?_, ?_⟩⟩
  · exact twins.symm.mem_targetsOf nodes.like.symm hrun' hrun
  · exact twins.mem_targetsOf nodes.like hrun hrun'

theorem finds_eq (twins : Twins p d v d' v') (hm : m.WellFormed p)
    (nodes : Counterparts d n d' n') : finds d' v' n' m = finds d v n m := by
  obtain ⟨targets, targets', hrun, hrun', hagree⟩ := twins.targetsOf_agree hm nodes
  simp only [finds, hrun, hrun', hagree.isEmpty_eq]

theorem told_eq (twins : Twins p d v d' v') (hp : p.WellFormed) (nodes : Counterparts d n d' n')
    {known : Option (Table Json)} : told p d' v' n' known = told p d v n known := by
  unfold told
  rw [nodes.like.typeId]
  apply List.foldl_ext
  intro known m hm
  have hwell := wellFormed_of_mem_mappingsFor hp twins.valid nodes.mem hm
  simp only [tell, twins.finds_eq hwell nodes]

theorem mem_offers (twins : Twins p d v d' v') (hm : m.WellFormed p)
    (nodes : Counterparts d n d' n') (he : e ∈ offers p d v n m) : e ∈ offers p d' v' n' m := by
  obtain ⟨targets, r, t, target, htargets, hr, ht, htarget, hopen, rfl⟩ :=
    Inference.mem_offers.mp he
  obtain ⟨found, found', hrun, hrun', hagree⟩ := twins.targetsOf_agree hm nodes
  obtain rfl := Except.ok.inj (htargets.symm.trans hrun)
  obtain ⟨name, _, hruling⟩ := Option.bind_eq_some_iff.mp hr
  obtain rfl : r.id = name := Preset.id_of_ruling? hruling
  obtain ⟨⟨other, u, hother, hu, hfits⟩, hauthored⟩ := isOpen_iff.mp hopen
  obtain ⟨other', hother', hlike⟩ := twins.same.nodes.exists_of_get? hother
  have hopen' : isOpen p d' n' r t target = true := by
    refine isOpen_iff.mpr ⟨⟨other', u, hother', hlike.typeId ▸ hu, hfits⟩, ?_⟩
    rw [nodes.like.id, isAuthored_eq twins.same hruling]
    exact hauthored
  refine Inference.mem_offers.mpr ⟨found', r, t, target, hrun', hr, ?_, ?_, hopen', ?_⟩
  · rw [nodes.like.typeId]
    exact ht
  · exact (hagree target).mpr htarget
  · rw [nodes.like.id]

/-- The last edge that mappings offer from one node to another is the same one. -/
theorem getLast?_offers (twins : Twins p d v d' v') (hp : p.WellFormed)
    (nodes : Counterparts d n d' n') {target : String} :
    ((mappingsFor p n'.typeId).flatMap fun m =>
        between (offers p d' v' n' m) n'.id target).getLast? =
      ((mappingsFor p n.typeId).flatMap fun m =>
        between (offers p d v n m) n.id target).getLast? := by
  rw [nodes.like.typeId, nodes.like.id]
  apply getLast?_flatMap_congr
  intro m hm
  have hwell := wellFormed_of_mem_mappingsFor hp twins.valid nodes.mem hm
  apply Option.ext
  intro e
  have hoffers : e ∈ offers p d' v' n' m ↔ e ∈ offers p d v n m :=
    ⟨twins.symm.mem_offers hwell nodes.symm, twins.mem_offers hwell nodes⟩
  rw [getLast?_between_offers, getLast?_between_offers, hoffers]

end Node

section Harvest

theorem mem_edges (twins : Twins p d v d' v') (hp : p.WellFormed) (run : harvest p d v = .ok h)
    (run' : harvest p d' v' = .ok h') (he : e ∈ h.edges) : e ∈ h'.edges := by
  have hoffered : e ∈ candidates p d v := by
    have hput := he
    rw [edges_of_harvest run] at hput
    exact (mem_of_mem_foldl_putLast hput).resolve_left List.not_mem_nil
  obtain ⟨n, hn, hmappings⟩ := List.mem_flatMap.mp hoffered
  obtain ⟨m, _, hmapping⟩ := List.mem_flatMap.mp hmappings
  have hsource : e.source = n.id := source_of_mem_offers hmapping
  obtain ⟨n', hn', hlike⟩ := twins.same.nodes.exists_of_mem_values hn
  -- both are the last edge that is offered from that node
  rw [mem_harvest_iff twins.valid hn run hsource] at he
  rw [mem_harvest_iff twins.valid' hn' run' (hsource.trans hlike.id.symm),
    twins.getLast?_offers hp ⟨hlike, hn, hn'⟩]
  exact he

/-- The same edges are gathered, though in another order. -/
theorem perm_edges (twins : Twins p d v d' v') (hp : p.WellFormed) (run : harvest p d v = .ok h)
    (run' : harvest p d' v' = .ok h') : h.edges.Perm h'.edges := by
  have hnodup : ∀ {d v h}, d.Valid p → v.Shows d → harvest p d v = .ok h → h.edges.Nodup := by
    intro d v h hd hv run
    obtain ⟨_, hrun, hgood⟩ := harvest_gives hp hd hv
    obtain rfl := Except.ok.inj (run.symm.trans hrun)
    refine hgood.distinct.imp ?_
    rintro e _ hdistinct rfl
    exact hdistinct ⟨rfl, rfl⟩
  refine (List.perm_ext_iff_of_nodup (hnodup twins.valid twins.shows run)
    (hnodup twins.valid' twins.shows' run')).mpr fun e => ⟨?_, ?_⟩
  · exact twins.mem_edges hp run run'
  · exact twins.symm.mem_edges hp run' run

theorem attributes_eq (twins : Twins p d v d' v') (hp : p.WellFormed)
    (run : harvest p d v = .ok h) (run' : harvest p d' v' = .ok h') :
    h'.attributes.get? key = h.attributes.get? key := by
  rw [attributes_of_harvest twins.valid run, attributes_of_harvest twins.valid' run']
  cases hn : d.nodes.get? key with
  | none => rw [twins.same.nodes.get?_eq_none hn, Option.bind_none, Option.bind_none]
  | some n =>
    obtain ⟨n', hn', hlike⟩ := twins.same.nodes.exists_of_get? hn
    have hnodes : Counterparts d n d' n' :=
      ⟨hlike, Table.mem_values_of_get? hn, Table.mem_values_of_get? hn'⟩
    rw [hn', Option.bind_some, Option.bind_some, twins.told_eq hp hnodes]

end Harvest

end Twins

section Rank

theorem ranksBefore_iff {a b : DerivedEdge} : ranksBefore a b = true ↔
    b.priority < a.priority ∨ (a.priority = b.priority ∧ a.id ≤ b.id) := by
  simp [ranksBefore]

theorem ranksBefore_trans (a b c : DerivedEdge) (hab : ranksBefore a b = true)
    (hbc : ranksBefore b c = true) : ranksBefore a c = true := by
  rw [ranksBefore_iff] at hab hbc ⊢
  obtain hab | ⟨hab, hids⟩ := hab <;> obtain hbc | ⟨hbc, hids'⟩ := hbc
  · exact .inl (by omega)
  · exact .inl (by omega)
  · exact .inl (by omega)
  · exact .inr ⟨hab.trans hbc, String.le_trans hids hids'⟩

theorem ranksBefore_total (a b : DerivedEdge) : (ranksBefore a b || ranksBefore b a) = true := by
  rw [Bool.or_eq_true, ranksBefore_iff, ranksBefore_iff]
  obtain hlt | heq | hgt := Int.lt_trichotomy a.priority b.priority
  · exact .inr (.inl hlt)
  · exact (String.le_total a.id b.id).imp (fun hids => .inr ⟨heq, hids⟩)
      fun hids => .inr ⟨heq.symm, hids⟩
  · exact .inl (.inl hgt)

theorem id_eq_of_ranksBefore {a b : DerivedEdge} (hab : ranksBefore a b = true)
    (hba : ranksBefore b a = true) : a.id = b.id := by
  rw [ranksBefore_iff] at hab hba
  obtain hab | ⟨_, hids⟩ := hab <;> obtain hba | ⟨_, hids'⟩ := hba
  · omega
  · omega
  · omega
  · exact String.le_antisymm hids hids'

end Rank

section Passes

variable {before : List DerivedEdge} {answer answer' : List DerivedEdge × Attributes}

theorem built_of_harvest (hp : p.WellFormed) (hd : d.Valid p) (hv : v.Shows d)
    (run : harvest p d v = .ok h) : Built p d h.edges := by
  obtain ⟨_, hrun, hgood⟩ := harvest_gives hp hd hv
  obtain rfl := Except.ok.inj (run.symm.trans hrun)
  refine ⟨hgood, fun e he => ?_⟩
  obtain ⟨m, hm⟩ := derives_of_mem_harvest hp hd hv run he
  exact ⟨m, hm.shape⟩

/-- A pass on rearranged documents comes to the same edges in the same order, and to the same
attributes. -/
theorem pass_rearranged (hp : p.WellFormed) (hd : d.Valid p) (hd' : d'.Valid p)
    (same : d.Rearranged p d') (plain : d.PlainIds) (built : Built p d before)
    (built' : Built p d' before) (run : pass p d before = .ok answer)
    (run' : pass p d' before = .ok answer') :
    answer'.1 = answer.1 ∧ ∀ key, answer'.2.get? key = answer.2.get? key := by
  have twins : Twins p d (graphOf p d before) d' (graphOf p d' before) :=
    ⟨hd, hd', same, built.shows hd, built'.shows hd', alike_graphOf hd hd' same plain built built'⟩
  obtain ⟨h, hharvest, hrest⟩ := bind_eq_ok.mp run
  obtain ⟨kept, hkept, hanswer⟩ := bind_eq_ok.mp hrest
  obtain ⟨h', hharvest', hrest'⟩ := bind_eq_ok.mp run'
  obtain ⟨kept', hkept', hanswer'⟩ := bind_eq_ok.mp hrest'
  have hgathered : Built p d h.edges := built_of_harvest hp hd twins.shows hharvest
  have hperm : h.edges.Perm h'.edges := twins.perm_edges hp hharvest hharvest'
  have hranked : h.edges.mergeSort ranksBefore = h'.edges.mergeSort ranksBefore := by
    -- edges of one rank go by one id, and ids tell edges apart
    refine mergeSort_eq_of_perm ranksBefore_trans ranksBefore_total ?_ hperm
    intro e f he hf hef hfe
    exact hgathered.eq_of_id plain he (hperm.mem_iff.mpr hf) (id_eq_of_ranksBefore hef hfe)
  have hkeeps := keeps_of_keepWithin hkept
  have hkeeps' := keeps_of_keepWithin hkept'
  rw [← hranked] at hkeeps'
  obtain rfl : kept' = kept := hkeeps.unique same hkeeps'
  obtain rfl := Except.ok.inj hanswer
  obtain rfl := Except.ok.inj hanswer'
  exact ⟨rfl, fun key => twins.attributes_eq hp hharvest hharvest'⟩

theorem sameAttributes_congr {a a' b b' : Attributes} (ha : ∀ key, a'.get? key = a.get? key)
    (hb : ∀ key, b'.get? key = b.get? key) : sameAttributes a' b' = sameAttributes a b := by
  unfold sameAttributes
  rw [Bool.eq_iff_iff, Table.sameBy_iff_matches, Table.sameBy_iff_matches]
  constructor
  · exact fun same => same.congr (fun key => (ha key).symm) fun key => (hb key).symm
  · exact fun same => same.congr ha hb

/-- What was derived is the same but for the order of attributes. -/
structure Same (i j : Inference) : Prop where
  edges : j.edges = i.edges
  attributes : ∀ node, j.attributes.get? node = i.attributes.get? node
  passes : j.passes = i.passes
  converged : j.converged = i.converged

/-- Passes on rearranged documents that start alike end alike. -/
theorem settle_rearranged (hp : p.WellFormed) (hd : d.Valid p) (hd' : d'.Valid p)
    (same : d.Rearranged p d') (plain : d.PlainIds) {left done : Nat} {edges : List DerivedEdge}
    {attributes attributes' : Attributes} {i j : Inference} (built : Built p d edges)
    (built' : Built p d' edges)
    (described : ∀ key, attributes'.get? key = attributes.get? key)
    (run : settle p d left done edges attributes = .ok i)
    (run' : settle p d' left done edges attributes' = .ok j) : Same i j := by
  -- after each pass both hold the same edges, built on either document, and agree on attributes
  induction left generalizing done edges attributes attributes' with
  | zero =>
    rw [← Except.ok.inj run, ← Except.ok.inj run']
    exact ⟨rfl, described, rfl, rfl⟩
  | succ left ih =>
    rw [settle] at run run'
    obtain ⟨⟨next, told⟩, hpass, hrest⟩ := bind_eq_ok.mp run
    obtain ⟨⟨next', told'⟩, hpass', hrest'⟩ := bind_eq_ok.mp run'
    obtain ⟨hedges, htold⟩ := pass_rearranged hp hd hd' same plain built built' hpass hpass'
    obtain rfl : next' = next := hedges
    have htest : sameAttributes told' attributes' = sameAttributes told attributes :=
      sameAttributes_congr htold described
    by_cases hstop : next' = edges ∧ sameAttributes told attributes = true
    · simp only [htest, hstop, and_self, if_true] at hrest hrest'
      rw [← Except.ok.inj hrest, ← Except.ok.inj hrest']
      exact ⟨rfl, described, rfl, rfl⟩
    · simp only [htest, hstop, if_false] at hrest hrest'
      have hbuilt : Built p d next' := built.pass hp hd hpass
      have hbuilt' : Built p d' next' := built'.pass hp hd' hpass'
      exact ih hbuilt hbuilt' htold hrest hrest'

end Passes

section Example

/-- A candidate in which a hub reaches what is two cables away. A cable can be followed both ways. -/
def cabling : Json :=
  .obj [("id", .str "net"), ("name", .str "Net"), ("version", .str "2.0.0"),
    ("nodeTypes", .arr [
      .obj [("id", .str "hub"), ("name", .str "Hub"), ("style", .obj [("color", .str "#000000")])],
      .obj [("id", .str "host"), ("name", .str "Host"),
        ("style", .obj [("color", .str "#000000")])]]),
    ("relationships", .arr [
      .obj [("id", .str "cable"), ("name", .str "Cable"), ("sourceTypes", .arr [.str "*"]),
        ("targetTypes", .arr [.str "*"]), ("directionality", .str "bidirectional")],
      .obj [("id", .str "reach"), ("name", .str "Reach"), ("sourceTypes", .arr [.str "hub"]),
        ("targetTypes", .arr [.str "*"])]]),
    ("behavior", .obj [("enableInference", .bool true)]),
    ("ontologyMappings", .arr [.obj [("id", .str "hops"), ("sourceType", .str "hub"),
      ("rule", .obj [("kind", .str "path"), ("derivedRelationship", .str "reach"),
        ("via", .arr [.obj [("relationship", .str "cable")], .obj [("relationship", .str "cable")]]),
        ("attributes", .obj [("connected", .bool true)])])]])]

def cablingPreset : Preset :=
  { id := "net", name := "Net", version := "2.0.0"
    nodeTypes := [{ id := "hub", name := "Hub", style := { color := "#000000" } },
      { id := "host", name := "Host", style := { color := "#000000" } }]
    relationships := [
      { id := "cable", name := "Cable", sourceTypes := ["*"], targetTypes := ["*"]
        directionality := .bidirectional },
      { id := "reach", name := "Reach", sourceTypes := ["hub"], targetTypes := ["*"] }]
    behavior := { enableInference := true }
    mappings := [{ id := "hops", sourceType := some "hub"
                   rule := { kind := .path, derived := some "reach"
                             via := [{ relationship := "cable" }, { relationship := "cable" }]
                             attributes := .ofEntries [("connected", .bool true)] } }] }

theorem cabling_accepted : Audit.validate cabling = .ok (.ok cablingPreset) := by
  decide +kernel

/-- What a batch of mutations makes of an empty document. -/
def cabled (steps : List Mutation) : Document :=
  let store : Store :=
    { preset := cablingPreset, document := .blank cablingPreset
      history := { limit := 100, limit_pos := Behavior.historyLimit_pos }, log := { limit := 5 } }
  (store.apply (.batch none steps)).1.document

theorem cabled_valid (steps : List Mutation) : (cabled steps).Valid cablingPreset := by
  have created : Store.create cablingPreset (.blank cablingPreset) none { limit := 5 } =
      .ok _ := rfl
  exact (Store.Reachable.apply (.blank (by decide) created) _).sound.valid

/-- A hub and two hosts in a row. -/
def cabledRow : Document :=
  cabled [.addNode { id := "a", typeId := "hub" }, .addNode { id := "b", typeId := "host" },
    .addNode { id := "c", typeId := "host" },
    .addEdge { id := "ab", typeId := "cable", source := "a", target := "b" },
    .addEdge { id := "bc", typeId := "cable", source := "b", target := "c" }]

/-- The same row, put together from the other end. -/
def cabledRowBack : Document :=
  cabled [.addNode { id := "c", typeId := "host" }, .addNode { id := "b", typeId := "host" },
    .addNode { id := "a", typeId := "hub" },
    .addEdge { id := "bc", typeId := "cable", source := "c", target := "b" },
    .addEdge { id := "ab", typeId := "cable", source := "b", target := "a" }]

theorem cabledRow_rearranged : cabledRow.Rearranged cablingPreset cabledRowBack := by
  have hnodes : cabledRow.nodes.entries.Perm cabledRowBack.nodes.entries := by decide +kernel
  have hturned : ∀ e ∈ cabledRow.edges.entries,
      cabledRowBack.edges.get? e.1 = some e.2.turned ∧ e.2.typeId = "cable" := by
    decide +kernel
  have hboth : cablingPreset.BothWays "cable" := ⟨_, rfl, by decide⟩
  refine ⟨.of_perm Node.Like.refl hnodes, .of_entries (by decide +kernel) fun e he => ?_⟩
  obtain ⟨hget, htype⟩ := hturned e he
  exact ⟨e.2.turned, hget, .turned (htype ▸ hboth)⟩

theorem cabledRow_plainIds : cabledRow.PlainIds where
  nodes := by decide +kernel
  edges := by decide +kernel
  ways := by decide +kernel

theorem cabledRow_derives : (recompute cablingPreset cabledRow 3).toOption.map
    (fun i => (i.edges.map DerivedEdge.id, i.attributes.keys)) =
      some (["inferred--hops--a--c"], ["a"]) := by
  decide +kernel

end Example

/-- What an accepted preset derives from a valid document depends neither on the order of nodes and
edges nor, for edges that can be followed both ways, on which way round they are, where ids are plain:
the same edges in the same order and the same attributes of each node, after as many passes, whether
these converged or not. -/
theorem recompute_rearranged {candidate : Json}
    (accepted : Audit.validate candidate = .ok (.ok p)) (valid : d.Valid p) (valid' : d'.Valid p)
    (plain : d.PlainIds) (same : d.Rearranged p d') (passes : Int) :
    ∃ i j, recompute p d passes = .ok i ∧ recompute p d' passes = .ok j ∧ j.edges = i.edges ∧
      (∀ node, j.attributes.get? node = i.attributes.get? node) ∧ j.passes = i.passes ∧
      j.converged = i.converged := by
  have hwell := Audit.wellFormed_of_validate accepted
  obtain ⟨i, hi, _⟩ := recompute_gives hwell valid passes
  obtain ⟨j, hj, _⟩ := recompute_gives hwell valid' passes
  have hsame : Same i j := by
    unfold recompute at hi hj
    by_cases hon : enabled p = true
    · rw [if_pos hon] at hi hj
      exact settle_rearranged hwell valid valid' same plain .nil .nil (fun _ => rfl) hi hj
    · rw [if_neg hon] at hi hj
      rw [← Except.ok.inj hi, ← Except.ok.inj hj]
      exact ⟨rfl, fun _ => rfl, rfl, rfl⟩
  exact ⟨i, j, hi, hj, hsame.edges, hsame.attributes, hsame.passes, hsame.converged⟩

theorem recompute_rearranged_cabledRow :
    Audit.validate cabling = .ok (.ok cablingPreset) ∧ cabledRow.Valid cablingPreset ∧
      cabledRowBack.Valid cablingPreset ∧ cabledRow.PlainIds ∧
      cabledRow.Rearranged cablingPreset cabledRowBack ∧
      ∃ i j, recompute cablingPreset cabledRow 3 = .ok i ∧
        recompute cablingPreset cabledRowBack 3 = .ok j ∧
        i.edges.map DerivedEdge.id = ["inferred--hops--a--c"] ∧
        j.edges = i.edges ∧ i.attributes.keys = ["a"] ∧
        (∀ node, j.attributes.get? node = i.attributes.get? node) ∧
        j.passes = i.passes ∧ j.converged = i.converged := by
  have hvalid : cabledRow.Valid cablingPreset := cabled_valid _
  have hvalid' : cabledRowBack.Valid cablingPreset := cabled_valid _
  obtain ⟨i, j, hi, hj, hedges, hattributes, hpasses, hconverged⟩ := recompute_rearranged
    cabling_accepted hvalid hvalid' cabledRow_plainIds cabledRow_rearranged 3
  have hderived := cabledRow_derives
  rw [hi] at hderived
  obtain ⟨hids, hkeys⟩ := Prod.mk.inj (Option.some.inj hderived)
  exact ⟨cabling_accepted, hvalid, hvalid', cabledRow_plainIds, cabledRow_rearranged, i, j, hi, hj,
    hids, hedges, hkeys, hattributes, hpasses, hconverged⟩

end GraphWorkbench.Inference

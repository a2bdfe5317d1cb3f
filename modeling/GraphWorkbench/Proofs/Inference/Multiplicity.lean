import GraphWorkbench.Proofs.Document.Reachable
import GraphWorkbench.Proofs.Inference.Passes
import GraphWorkbench.Proofs.Preset.Audit
/-!
Multiplicity of derived edges. They are kept one by one, each beside the authored edges and those
kept before. The check leaves out what goes by the id of the checked edge, and an edge kept under an
id hides the authored edge of that id; so a derived edge has its place among the derived ones and
beside every authored edge whose id none of them bears.
-/
namespace GraphWorkbench.Inference

open Outcome

variable {p : Preset} {d : Document}

section Keeping

variable {kept kept' : Table DerivedEdge} {candidates : List DerivedEdge} {e : DerivedEdge}

/-- The edges that a candidate is checked against: those kept, written over the authored ones. -/
def rivals (d : Document) (kept : Table DerivedEdge) : Table Edge :=
  d.edges.merge (kept.mapValues DerivedEdge.toEdge)

/-- A candidate has room beside its rivals of other ids. -/
def HasRoom (p : Preset) (d : Document) (kept : Table DerivedEdge) (e : DerivedEdge) : Prop :=
  ∀ o ∈ (rivals d kept).values, o.id ≠ e.id → p.Bears o e.toEdge

/-- Candidates taken one after another: each is kept exactly when it has room. -/
inductive Keeps (p : Preset) (d : Document) :
    Table DerivedEdge → List DerivedEdge → Table DerivedEdge → Prop
  | done {kept : Table DerivedEdge} : Keeps p d kept [] kept
  | keep {kept kept' : Table DerivedEdge} {e : DerivedEdge} {rest : List DerivedEdge}
      (room : HasRoom p d kept e) (others : Keeps p d (kept.put e.id e) rest kept') :
      Keeps p d kept (e :: rest) kept'
  | drop {kept kept' : Table DerivedEdge} {e : DerivedEdge} {rest : List DerivedEdge}
      (full : ¬ HasRoom p d kept e) (others : Keeps p d kept rest kept') :
      Keeps p d kept (e :: rest) kept'

theorem keeps_of_keepWithin (h : keepWithin p d candidates = .ok kept) :
    Keeps p d .empty candidates kept := by
  unfold keepWithin at h
  -- the induction is on the candidates, from any table of edges kept so far
  generalize Table.empty = start at h ⊢
  induction candidates generalizing start with
  | nil => exact Except.ok.inj h ▸ .done
  | cons e rest ih =>
    rw [List.foldlM_cons] at h
    obtain ⟨next, hstep, hrest⟩ := bind_eq_ok.mp h
    obtain ⟨r, hr, hchecked⟩ := bind_eq_ok.mp hstep
    have hruled : p.ruling? e.toEdge.typeId = some r := known_eq_ok.mp hr
    have hiff : checkMultiplicity r e.toEdge (rivals d start).values true = .ok () ↔
        HasRoom p d start e := by
      rw [Preset.checkMultiplicity_eq_ok_iff_bears hruled]
      simp [HasRoom, DerivedEdge.toEdge]
    simp only at hchecked
    split at hchecked
    next hcheck =>
      obtain rfl := Except.ok.inj hchecked
      exact .keep (hiff.mp hcheck) (ih _ hrest)
    next => exact nomatch hchecked
    next hcheck =>
      obtain rfl := Except.ok.inj hchecked
      exact .drop (fun room => nomatch (hiff.mpr room).symm.trans hcheck) (ih _ hrest)

/-- A pass answers with what is kept, sorted, of what it gathers. -/
theorem pass_keeps {before : List DerivedEdge} {answer : List DerivedEdge × Attributes}
    (run : pass p d before = .ok answer) :
    ∃ h kept, harvest p d (GraphView.ofDocument p d (before.map DerivedEdge.toEdge)) = .ok h ∧
      Keeps p d .empty (h.edges.mergeSort ranksBefore) kept ∧ answer.1.Perm kept.values := by
  obtain ⟨h, hharvest, hrest⟩ := bind_eq_ok.mp run
  obtain ⟨kept, hkept, hanswer⟩ := bind_eq_ok.mp hrest
  obtain rfl := Except.ok.inj hanswer
  exact ⟨h, kept, hharvest, keeps_of_keepWithin hkept, List.mergeSort_perm _ _⟩

theorem mem_rivals_of_kept {key : String} (h : kept.get? key = some e) :
    e.toEdge ∈ (rivals d kept).values := by
  have hget : (rivals d kept).get? key = some e.toEdge := by
    rw [rivals, Table.get?_merge, Table.get?_mapValues, h]
    rfl
  exact Table.mem_values_of_get? hget

theorem mem_rivals_of_authored (hd : d.Valid p) {o : Edge} (ho : o ∈ d.edges.values)
    (visible : kept.get? o.id = none) : o ∈ (rivals d kept).values := by
  obtain ⟨key, hentry⟩ := Table.mem_values.mp ho
  have hkey : o.id = key := hd.edgeKeys _ hentry
  have hget : (rivals d kept).get? o.id = some o := by
    rw [rivals, Table.get?_merge, Table.get?_mapValues, visible, hkey]
    exact Table.get?_of_mem hentry
  exact Table.mem_values_of_get? hget

/-- The edges kept so far go by their ids, and have room beside each other and beside the authored
edges that none of them hides. -/
structure Spaced (p : Preset) (d : Document) (kept : Table DerivedEdge) : Prop where
  named : ∀ key e, kept.get? key = some e → e.id = key
  apart : ∀ key other e f, key ≠ other → kept.get? key = some e → kept.get? other = some f →
    p.Permits e.toEdge f.toEdge
  beside : ∀ o ∈ d.edges.values, kept.get? o.id = none → ∀ key e, kept.get? key = some e →
    p.Permits o e.toEdge

theorem Spaced.empty : Spaced p d .empty where
  named _ _ h := nomatch h
  apart _ _ _ _ _ h := nomatch h
  beside _ _ _ _ _ h := nomatch h

theorem Spaced.put (spaced : Spaced p d kept) (hd : d.Valid p) (room : HasRoom p d kept e) :
    Spaced p d (kept.put e.id e) := by
  -- the edges under other ids were kept before, and are rivals of the new one
  have hrival : ∀ {key f}, key ≠ e.id → kept.get? key = some f → p.Permits f.toEdge e.toEdge := by
    intro key f hkey hf
    have hid : f.id ≠ e.id := spaced.named key f hf ▸ hkey
    exact (room f.toEdge (mem_rivals_of_kept hf) hid).permits
  refine ⟨?_, ?_, ?_⟩
  · intro key f hf
    rw [Table.get?_put] at hf
    split at hf
    next hkey => rw [← Option.some.inj hf, hkey]
    next => exact spaced.named key f hf
  · intro key other f g hne hf hg
    rw [Table.get?_put] at hf hg
    by_cases hkey : key = e.id <;> by_cases hother : other = e.id
    · exact absurd (hkey.trans hother.symm) hne
    · rw [if_pos hkey] at hf
      rw [if_neg hother] at hg
      exact Option.some.inj hf ▸ (hrival hother hg).symm
    · rw [if_neg hkey] at hf
      rw [if_pos hother] at hg
      exact Option.some.inj hg ▸ hrival hkey hf
    · rw [if_neg hkey] at hf
      rw [if_neg hother] at hg
      exact spaced.apart key other f g hne hf hg
  · intro o ho hvisible key f hf
    rw [Table.get?_put] at hvisible hf
    -- an authored edge that the new edge does not hide was visible to it
    have hother : o.id ≠ e.id := fun hid => by simp [hid] at hvisible
    rw [if_neg hother] at hvisible
    split at hf
    next =>
      have hbears := room o (mem_rivals_of_authored hd ho hvisible) hother
      exact Option.some.inj hf ▸ hbears.permits
    next => exact spaced.beside o ho hvisible key f hf

theorem Keeps.spaced (h : Keeps p d kept candidates kept') (hd : d.Valid p)
    (spaced : Spaced p d kept) : Spaced p d kept' := by
  induction h with
  | done => exact spaced
  | keep room _ ih => exact ih (spaced.put hd room)
  | drop _ _ ih => exact ih spaced

end Keeping

section Room

variable {edges edges' : List DerivedEdge}

/-- Derived edges have room beside each other, and beside the authored edges whose ids none of them
bears. -/
structure Roomy (p : Preset) (d : Document) (edges : List DerivedEdge) : Prop where
  among : edges.Pairwise fun e f => p.Permits e.toEdge f.toEdge
  beside : ∀ o ∈ d.edges.values, (∀ e ∈ edges, e.id ≠ o.id) → ∀ e ∈ edges, p.Permits o e.toEdge

theorem Roomy.nil : Roomy p d [] := ⟨.nil, by simp⟩

theorem Roomy.perm (h : Roomy p d edges) (same : edges'.Perm edges) : Roomy p d edges' := by
  refine ⟨(same.pairwise_iff Preset.Permits.symm).mpr h.among, ?_⟩
  intro o ho hfree e he
  exact h.beside o ho (fun f hf => hfree f (same.mem_iff.mpr hf)) e (same.mem_iff.mp he)

theorem Spaced.roomy {kept : Table DerivedEdge} (spaced : Spaced p d kept) :
    Roomy p d kept.values := by
  refine ⟨?_, ?_⟩
  · apply Table.pairwise_values
    intro key other e f hne he hf
    exact spaced.apart key other e f hne he hf
  · intro o ho hfree e he
    obtain ⟨key, hkey⟩ := Table.exists_get?_of_mem_values he
    -- an edge kept under the id of the authored one would bear that id
    have hvisible : kept.get? o.id = none := by
      by_contra hhidden
      obtain ⟨f, hf⟩ := Option.ne_none_iff_exists'.mp hhidden
      exact hfree f (Table.mem_values_of_get? hf) (spaced.named o.id f hf)
    exact spaced.beside o ho hvisible key e hkey

theorem pass_roomy (hd : d.Valid p) {answer : List DerivedEdge × Attributes}
    (h : pass p d edges = .ok answer) : Roomy p d answer.1 := by
  obtain ⟨_, kept, _, hkeeps, hanswer⟩ := pass_keeps h
  have hspaced : Spaced p d kept := hkeeps.spaced hd Spaced.empty
  exact hspaced.roomy.perm hanswer

theorem recompute_roomy (hd : d.Valid p) {passes : Int} {i : Inference}
    (h : recompute p d passes = .ok i) : Roomy p d i.edges := by
  obtain ⟨n, answer, _, hanswer, hedges⟩ := recompute_eq_afterPasses h
  have hroomy : Roomy p d answer.1 :=
    afterPasses_induct Roomy.nil (fun _ _ hpass => pass_roomy hd hpass) hanswer
  rw [hedges]
  exact hroomy.perm (List.mergeSort_perm _ _)

end Room

section Example

/-- A candidate in which every pump comes to feed every tank, as far as the multiplicity of feeding
admits it. -/
def waterworks (m : Multiplicity) : Json :=
  .obj [("id", .str "net"), ("name", .str "Net"), ("version", .str "2.0.0"),
    ("nodeTypes", .arr [
      .obj [("id", .str "pump"), ("name", .str "Pump"),
        ("style", .obj [("color", .str "#000000")])],
      .obj [("id", .str "tank"), ("name", .str "Tank"),
        ("style", .obj [("color", .str "#000000")])]]),
    ("relationships", .arr [.obj [("id", .str "feeds"), ("name", .str "Feeds"),
      ("sourceTypes", .arr [.str "*"]), ("targetTypes", .arr [.str "*"]),
      ("multiplicity", .str m.word)]]),
    ("behavior", .obj [("enableInference", .bool true)]),
    ("ontologyMappings", .arr [.obj [("id", .str "m"), ("sourceType", .str "pump"),
      ("rule", .obj [("kind", .str "by-type"), ("derivedRelationship", .str "feeds"),
        ("targetTypes", .arr [.str "tank"])])]])]

def feeding : Mapping :=
  { id := "m", sourceType := some "pump"
    rule := { kind := .byType, derived := some "feeds", targetTypes := some ["tank"] } }

def feeds (m : Multiplicity) : Relationship :=
  { id := "feeds", name := "Feeds", sourceTypes := ["*"], targetTypes := ["*"], multiplicity := m }

def waterworksPreset (m : Multiplicity) : Preset :=
  { id := "net", name := "Net", version := "2.0.0"
    nodeTypes := [{ id := "pump", name := "Pump", style := { color := "#000000" } },
      { id := "tank", name := "Tank", style := { color := "#000000" } }]
    relationships := [feeds m]
    behavior := { enableInference := true }
    mappings := [feeding] }

theorem waterworks_accepted (m : Multiplicity) :
    Audit.validate (waterworks m) = .ok (.ok (waterworksPreset m)) := by
  cases m <;> decide +kernel

/-- What a batch of mutations makes of an empty document. -/
def plumb (m : Multiplicity) (steps : List Mutation) : Document :=
  let store : Store :=
    { preset := waterworksPreset m, document := .blank (waterworksPreset m)
      history := { limit := 100, limit_pos := Behavior.historyLimit_pos }, log := { limit := 5 } }
  (store.apply (.batch none steps)).1.document

theorem plumb_valid (m : Multiplicity) (steps : List Mutation) :
    (plumb m steps).Valid (waterworksPreset m) := by
  have created : Store.create (waterworksPreset m) (.blank (waterworksPreset m)) none
      { limit := 5 } = .ok _ := rfl
  exact (Store.Reachable.apply (.blank (by cases m <;> decide) created) _).sound.valid

/-- A pump that feeds one of two tanks. -/
def halfFed : Document :=
  plumb .oneToMany [.addNode { id := "p", typeId := "pump" },
    .addNode { id := "t", typeId := "tank" }, .addNode { id := "u", typeId := "tank" },
    .addEdge { id := "pt", typeId := "feeds", source := "p", target := "t" }]

theorem halfFed_derives : (recompute (waterworksPreset .oneToMany) halfFed 3).toOption.map
    (fun i => i.edges.map fun e => (e.relationship, e.source, e.target)) =
      some [("feeds", "p", "u")] := by
  decide +kernel

/-- A tank that the second of two pumps feeds, through an edge by whose id a derived one goes. -/
def overfed : Document :=
  plumb .oneToMany [.addNode { id := "p", typeId := "pump" },
    .addNode { id := "q", typeId := "pump" }, .addNode { id := "t", typeId := "tank" },
    .addEdge { id := "inferred--m--p--t", typeId := "feeds", source := "q", target := "t" }]

theorem overfed_derives : (recompute (waterworksPreset .oneToMany) overfed 3).toOption.map
    (fun i => i.edges.map fun e => (e.relationship, e.source, e.target)) =
      some [("feeds", "p", "t")] := by
  decide +kernel

end Example

/-- What an accepted preset derives from a valid document respects multiplicity: no two derived edges
are more than their relationship admits, and none is too much beside an authored edge, but for an
authored edge by whose id a derived one goes. -/
theorem recompute_permits {candidate : Json} (accepted : Audit.validate candidate = .ok (.ok p))
    (valid : d.Valid p) (passes : Int) :
    ∃ i, recompute p d passes = .ok i ∧
      ((d.edges.values.filter fun o => i.edges.all fun e => e.id != o.id) ++
        i.edges.map DerivedEdge.toEdge).Pairwise p.Permits := by
  have hwell := Audit.wellFormed_of_validate accepted
  obtain ⟨i, hi, _⟩ := recompute_gives hwell valid passes
  have hroomy := recompute_roomy valid hi
  refine ⟨i, hi, List.pairwise_append.mpr ⟨?_, ?_, ?_⟩⟩
  · exact valid.multiplicity.sublist List.filter_sublist
  · exact List.pairwise_map.mpr hroomy.among
  · intro o ho e he
    obtain ⟨derived, hderived, rfl⟩ := List.mem_map.mp he
    obtain ⟨hauthored, hfree⟩ := List.mem_filter.mp ho
    exact hroomy.beside o hauthored (by simpa using hfree) derived hderived

/-- A derived edge is not checked against an authored edge by whose id it goes: here a second pump
comes to feed a tank that is fed already. -/
theorem recompute_not_permitted_overfed :
    Audit.validate (waterworks .oneToMany) = .ok (.ok (waterworksPreset .oneToMany)) ∧
      overfed.Valid (waterworksPreset .oneToMany) ∧
      ∃ i, recompute (waterworksPreset .oneToMany) overfed 3 = .ok i ∧
        ¬ (overfed.edges.values ++ i.edges.map DerivedEdge.toEdge).Pairwise
          (waterworksPreset .oneToMany).Permits := by
  obtain ⟨i, hi, hedges⟩ := Option.map_eq_some_iff.mp overfed_derives
  refine ⟨waterworks_accepted _, plumb_valid _ _, i, eq_ok_of_toOption hi, ?_⟩
  intro hpairwise
  have hderived : ("feeds", "p", "t") ∈ i.edges.map fun e => (e.relationship, e.source, e.target) :=
    hedges ▸ List.mem_singleton_self _
  obtain ⟨e, he, hends⟩ := List.mem_map.mp hderived
  simp only [Prod.mk.injEq] at hends
  have hauthored : { id := "inferred--m--p--t", typeId := "feeds", source := "q", target := "t" } ∈
      overfed.edges.values := by
    decide +kernel
  -- both edges lead to the tank
  have hpermits := (List.pairwise_append.mp hpairwise).2.2 _ hauthored _ (List.mem_map_of_mem he)
  exact hpermits hends.1 (feeds .oneToMany) rfl hends.2.2.symm

theorem recompute_permits_halfFed :
    Audit.validate (waterworks .oneToMany) = .ok (.ok (waterworksPreset .oneToMany)) ∧
      halfFed.Valid (waterworksPreset .oneToMany) ∧
      ∃ i, recompute (waterworksPreset .oneToMany) halfFed 3 = .ok i ∧
        i.edges.map (fun e => (e.relationship, e.source, e.target)) = [("feeds", "p", "u")] ∧
        ((halfFed.edges.values.filter fun o => i.edges.all fun e => e.id != o.id) ++
          i.edges.map DerivedEdge.toEdge).Pairwise (waterworksPreset .oneToMany).Permits := by
  have hvalid : halfFed.Valid (waterworksPreset .oneToMany) := plumb_valid _ _
  obtain ⟨i, hi, hpermitted⟩ := recompute_permits (waterworks_accepted .oneToMany) hvalid 3
  have hedges := halfFed_derives
  rw [hi] at hedges
  exact ⟨waterworks_accepted _, hvalid, i, hi, Option.some.inj hedges, hpermitted⟩

end GraphWorkbench.Inference

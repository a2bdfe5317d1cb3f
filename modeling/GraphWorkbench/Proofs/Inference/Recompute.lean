import GraphWorkbench.Inference.Coverage
import GraphWorkbench.Proofs.Document.Reachable
import GraphWorkbench.Proofs.Inference.Derivation
import GraphWorkbench.Proofs.Preset.Audit
/-!
What is derived from a valid document of an accepted preset: there is always an answer, and each of
its edges could have been authored but for being derived.
-/
namespace GraphWorkbench.Inference

open Outcome

variable {candidate : Json} {p : Preset} {d : Document} {i : Inference}

theorem ofNode_eq {node : String} {passes : Int} (known : d.nodes.has node = true)
    (answer : recompute p d passes = .ok i) :
    ofNode p d node passes = .ok
      { node
        edges := i.edges.filter fun e => e.source == node || e.target == node
        attributes := (i.attributes.get? node).getD .empty
        converged := i.converged } := by
  unfold ofNode
  rw [answer]
  simp [known, ofFault_ok, ok_bind, pure_eq_ok]

/-- Sensors are nodes of the document, and so is what they detect. -/
theorem has_of_mem_sensors (hd : d.Valid p) (good : Good p d i.edges) {s : Sensor}
    (hs : s ∈ (Coverage.ofInference p d i).sensors) :
    d.nodes.has s.node = true ∧ ∀ t ∈ s.detects, d.nodes.has t = true := by
  obtain ⟨n, hn, rfl⟩ := List.mem_map.mp hs
  have hnode := hd.get?_node (List.mem_filter.mp hn).1
  refine ⟨Table.has_iff_exists.mpr ⟨n, hnode⟩, ?_⟩
  intro t ht
  obtain ⟨e, he, rfl⟩ := List.mem_map.mp (List.mem_mergeSort.mp ht)
  exact (good.connects _ (List.mem_map_of_mem (List.mem_filter.mp he).1)).2

section Example

/-- A candidate whose only mapping lets a host watch the hosts two links away. -/
def watchingHosts : Json :=
  .obj [("id", .str "net"), ("name", .str "Net"), ("version", .str "2.0.0"),
    ("nodeTypes", .arr [.obj [("id", .str "host"), ("name", .str "Host"),
      ("ontologyClass", .str "Sensor"), ("style", .obj [("color", .str "#000000")])]]),
    ("relationships", .arr [
      .obj [("id", .str "link"), ("name", .str "Link"), ("sourceTypes", .arr [.str "host"]),
        ("targetTypes", .arr [.str "host"])],
      .obj [("id", .str "watch"), ("name", .str "Watch"), ("sourceTypes", .arr [.str "*"]),
        ("targetTypes", .arr [.str "host"])]]),
    ("behavior", .obj [("enableInference", .bool true)]),
    ("ontologyMappings", .arr [.obj [("id", .str "watcher"), ("ontologyClass", .str "Sensor"),
      ("rule", .obj [("kind", .str "path"), ("derivedRelationship", .str "watch"),
        ("via", .arr [.obj [("relationship", .str "link")], .obj [("relationship", .str "link")]]),
        ("confidence", .int 60)])]])]

def watchingPreset : Preset :=
  { id := "net", name := "Net", version := "2.0.0"
    nodeTypes := [{ id := "host", name := "Host", ontologyClass := some "Sensor",
                    style := { color := "#000000" } }]
    relationships := [
      { id := "link", name := "Link", sourceTypes := ["host"], targetTypes := ["host"] },
      { id := "watch", name := "Watch", sourceTypes := ["*"], targetTypes := ["host"] }]
    behavior := { enableInference := true }
    mappings := [{ id := "watcher", ontologyClass := some "Sensor",
                   rule := { kind := .path, derived := some "watch",
                             via := [{ relationship := "link" }, { relationship := "link" }],
                             confidence := 60 } }] }

theorem watchingHosts_accepted : Audit.validate watchingHosts = .ok (.ok watchingPreset) := by
  decide +kernel

/-- An empty store of the preset. -/
def watchingStore : Store :=
  { preset := watchingPreset, document := .blank watchingPreset
    history := { limit := 100, limit_pos := Behavior.historyLimit_pos }, log := { limit := 5 } }

/-- Adds three hosts in a row. -/
def addHosts : Mutation :=
  .batch none [.addNode { id := "a", typeId := "host" }, .addNode { id := "b", typeId := "host" },
    .addNode { id := "c", typeId := "host" },
    .addEdge { id := "ab", typeId := "link", source := "a", target := "b" },
    .addEdge { id := "bc", typeId := "link", source := "b", target := "c" }]

def hostRow : Document := (watchingStore.apply addHosts).1.document

theorem hostRow_valid : hostRow.Valid watchingPreset := by
  have created : Store.create watchingPreset (.blank watchingPreset) none { limit := 5 } =
      .ok watchingStore := rfl
  have reachable : (watchingStore.apply addHosts).1.Reachable watchingPreset :=
    .apply (.blank (by decide) created) addHosts
  exact reachable.sound.valid

/-- The first host watches the last one. -/
theorem hostRow_edges : (recompute watchingPreset hostRow 3).toOption.map
    (fun i => i.edges.map DerivedEdge.id) = some ["inferred--watcher--a--c"] := by
  decide +kernel

end Example

/-- Whatever an accepted preset derives from a valid document, for however many passes, no fault is
met on the way: not by the passes, not by the part that touches one of the nodes, and not by the
coverage, which reads a confidence from every edge. -/
theorem recompute_returns (accepted : Audit.validate candidate = .ok (.ok p)) (valid : d.Valid p)
    (passes : Int) :
    ∃ i, recompute p d passes = .ok i ∧
      (∀ node, d.nodes.has node = true →
        ∃ part, ofNode p d node passes = .ok part ∧ part.node = node ∧
          ∀ e, e ∈ part.edges ↔ e ∈ i.edges ∧ (e.source = node ∨ e.target = node)) ∧
      (∃ c, (recompute p d passes).map (Coverage.ofInference p d) = .ok c ∧
        ∀ s ∈ c.sensors, d.nodes.has s.node = true ∧ ∀ t ∈ s.detects, d.nodes.has t = true) ∧
      ∀ e ∈ i.edges, e.toEdge.properties.get? "priority" = some (.int e.priority) ∧
        e.toEdge.properties.get? "confidence" = some (.int e.confidence) := by
  have hwell := Audit.wellFormed_of_validate accepted
  obtain ⟨i, hi, hsettled⟩ := recompute_gives hwell valid passes
  refine ⟨i, hi, ?_, ?_, fun e _ => ⟨rfl, rfl⟩⟩
  · intro node hnode
    refine ⟨_, ofNode_eq hnode hi, rfl, ?_⟩
    intro e
    simp [List.mem_filter]
  · refine ⟨Coverage.ofInference p d i, by rw [hi]; rfl, ?_⟩
    intro s hs
    exact has_of_mem_sensors valid hsettled.good hs

theorem recompute_returns_hostRow :
    Audit.validate watchingHosts = .ok (.ok watchingPreset) ∧ hostRow.Valid watchingPreset ∧
      ∃ i, recompute watchingPreset hostRow 3 = .ok i ∧
        i.edges.map DerivedEdge.id = ["inferred--watcher--a--c"] ∧
        (∃ part, ofNode watchingPreset hostRow "c" 3 = .ok part ∧
          ∀ e, e ∈ part.edges ↔ e ∈ i.edges ∧ (e.source = "c" ∨ e.target = "c")) ∧
        ∃ c, (recompute watchingPreset hostRow 3).map
          (Coverage.ofInference watchingPreset hostRow) = .ok c := by
  obtain ⟨i, hi, hparts, ⟨c, hc, _⟩, _⟩ := recompute_returns watchingHosts_accepted hostRow_valid 3
  obtain ⟨part, hpart, _, hedges⟩ := hparts "c" (by decide +kernel)
  have hids := hostRow_edges
  rw [hi] at hids
  exact ⟨watchingHosts_accepted, hostRow_valid, i, hi, Option.some.inj hids,
    ⟨part, hpart, hedges⟩, c, hc⟩

/-- What an accepted preset derives from a valid document could be authored: every derived edge is
admissible beside the authored ones, no two of them join the same nodes the same way, and they stand
in the order of their gravity. -/
theorem recompute_admissible (accepted : Audit.validate candidate = .ok (.ok p))
    (valid : d.Valid p) (passes : Int) :
    ∃ i, recompute p d passes = .ok i ∧
      (∀ e ∈ i.edges, Admissible p d e.toEdge) ∧
      i.edges.Pairwise (fun a b => ¬ (a.source = b.source ∧ a.target = b.target)) ∧
      i.edges.Pairwise (fun a b => a.severity.rank < b.severity.rank ∨
        (a.severity = b.severity ∧ a.id ≤ b.id)) := by
  have hwell := Audit.wellFormed_of_validate accepted
  obtain ⟨i, hi, hsettled⟩ := recompute_gives hwell valid passes
  exact ⟨i, hi, hsettled.good.admissible, hsettled.good.distinct, hsettled.ordered⟩

theorem recompute_admissible_hostRow :
    Audit.validate watchingHosts = .ok (.ok watchingPreset) ∧ hostRow.Valid watchingPreset ∧
      ∃ i, recompute watchingPreset hostRow 3 = .ok i ∧
        i.edges.map DerivedEdge.id = ["inferred--watcher--a--c"] ∧
        (∀ e ∈ i.edges, Admissible watchingPreset hostRow e.toEdge) ∧
        i.edges.Pairwise DistinctEnds ∧ i.edges.Pairwise Precedes := by
  obtain ⟨i, hi, hadmissible, hdistinct, hordered⟩ :=
    recompute_admissible watchingHosts_accepted hostRow_valid 3
  have hids := hostRow_edges
  rw [hi] at hids
  exact ⟨watchingHosts_accepted, hostRow_valid, i, hi, Option.some.inj hids, hadmissible,
    hdistinct, hordered⟩

end GraphWorkbench.Inference

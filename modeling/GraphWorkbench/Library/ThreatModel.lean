import GraphWorkbench.Preset.Basic
/-!
The preset for threat models: actors, what they use and target, and what defends against them.
-/
namespace GraphWorkbench.Library

def threatModelNodeTypes : List NodeType :=
  [ { id := "threat-actor"
      name := "Threat Actor"
      category := "Adversary"
      description := "Individual, group or organisation operating with malicious intent"
      ontologyClass := some "d3f:ThreatActor"
      properties :=
        [{ id := "name", name := "Name", required := true },
          { id := "stixType", name := "STIX type" },
          { id := "sophistication", name := "Sophistication", kind := .choice,
            options := some ["none", "minimal", "intermediate", "advanced", "expert", "innovator",
                             "strategic"] }]
      style := { color := "#ef4444", icon := some "UserX", shape := some .circle } },
    { id := "campaign"
      name := "Campaign"
      category := "Adversary"
      description := "A grouping of adversarial behaviour over a period of time"
      properties :=
        [{ id := "name", name := "Name", required := true },
          { id := "stixType", name := "STIX type" },
          { id := "firstSeen", name := "First seen", kind := .date }]
      style := { color := "#f97316", icon := some "Flag", shape := some .rounded } },
    { id := "attack-pattern"
      name := "Attack Pattern"
      category := "Behaviour"
      description := "A tactic, technique or procedure used to compromise targets"
      ontologyClass := some "d3f:OffensiveTechnique"
      properties :=
        [{ id := "name", name := "Name", required := true },
          { id := "stixType", name := "STIX type" },
          { id := "techniqueId", name := "Technique ID" }]
      rules :=
        [{ property := "techniqueId", check := .pattern,
           limit := (.str "^T\\d\x7b4\x7d(\\.\\d\x7b3\x7d)?$"),
           message := some "must look like T1234 or T1234.001" }]
      style := { color := "#eab308", icon := some "Crosshair", shape := some .hexagon } },
    { id := "malware"
      name := "Malware"
      category := "Capability"
      description := "Malicious code"
      properties :=
        [{ id := "name", name := "Name", required := true },
          { id := "stixType", name := "STIX type" },
          { id := "isFamily", name := "Is family", kind := .boolean }]
      style := { color := "#a855f7", icon := some "Bug", shape := some .rounded } },
    { id := "tool"
      name := "Tool"
      category := "Capability"
      description := "Legitimate software that can be used by threat actors"
      properties :=
        [{ id := "name", name := "Name", required := true },
          { id := "stixType", name := "STIX type" }]
      style := { color := "#8b5cf6", icon := some "Wrench", shape := some .rounded } },
    { id := "vulnerability"
      name := "Vulnerability"
      category := "Weakness"
      description := "A mistake in software that can be used to gain unauthorised access"
      properties :=
        [{ id := "name", name := "Name", required := true },
          { id := "stixType", name := "STIX type" },
          { id := "cvss", name := "CVSS score", kind := .number }]
      rules :=
        [{ property := "cvss", check := .min, limit := (.int 0) },
          { property := "cvss", check := .max, limit := (.int 10) }]
      style := { color := "#dc2626", icon := some "ShieldAlert", shape := some .diamond } },
    { id := "indicator"
      name := "Indicator"
      category := "Detection"
      description := "A pattern that can be used to detect suspicious or malicious activity"
      properties :=
        [{ id := "name", name := "Name", required := true },
          { id := "stixType", name := "STIX type" },
          { id := "dataSource", name := "Data source" }]
      style := { color := "#14b8a6", icon := some "Radar", shape := some .rectangle } },
    { id := "mitigation"
      name := "Mitigation"
      category := "Defense"
      description := "A course of action that prevents or responds to an attack"
      ontologyClass := some "d3f:DefensiveTechnique"
      properties :=
        [{ id := "name", name := "Name", required := true },
          { id := "stixType", name := "STIX type" }]
      style := { color := "#22c55e", icon := some "Shield", shape := some .rounded } },
    { id := "asset"
      name := "Asset"
      category := "Environment"
      description := "A system, organisation or infrastructure element worth protecting"
      ontologyClass := some "d3f:DigitalArtifact"
      properties :=
        [{ id := "name", name := "Name", required := true },
          { id := "stixType", name := "STIX type" },
          { id := "criticality", name := "Criticality", kind := .choice, options := some ["low",
                                                                                          "medium", "high", "critical"] },
          { id := "url", name := "URL", kind := .url }]
      style := { color := "#3b82f6", icon := some "Server", shape := some .rectangle } },
    { id := "location"
      name := "Location"
      category := "Environment"
      description := "A geographic location"
      properties :=
        [{ id := "name", name := "Name", required := true },
          { id := "stixType", name := "STIX type" }]
      style := { color := "#0ea5e9", icon := some "MapPin", shape := some .circle } },
    { id := "group"
      name := "Group"
      category := "Context"
      description := "A set of related objects sharing a context"
      properties :=
        [{ id := "name", name := "Name", required := true },
          { id := "stixType", name := "STIX type" }]
      style := { color := "#64748b", icon := some "Folder", shape := some .rectangle } },
    { id := "sensor"
      name := "Sensor"
      category := "Defense"
      description := "A monitoring capability that observes a data source"
      ontologyClass := some "d3f:PlatformMonitoring"
      properties :=
        [{ id := "name", name := "Name", required := true },
          { id := "dataSource", name := "Data source" }]
      outgoing := some ["detects", "related-to"]
      style := { color := "#10b981", icon := some "Eye", shape := some .circle } }]

def threatModelRelationships : List Relationship :=
  [ { id := "uses"
      name := "uses"
      sourceTypes := ["threat-actor", "campaign", "malware", "tool", "attack-pattern"]
      targetTypes := ["attack-pattern", "malware", "tool", "asset"]
      style := { strokeColor := "#f97316", strokeWidth := 2 } },
    { id := "targets"
      name := "targets"
      sourceTypes := ["threat-actor", "campaign", "attack-pattern", "malware", "tool"]
      targetTypes := ["asset", "vulnerability", "location"]
      style := { strokeColor := "#ef4444", strokeWidth := 2 } },
    { id := "mitigates"
      name := "mitigates"
      sourceTypes := ["mitigation"]
      targetTypes := ["attack-pattern", "malware", "tool", "vulnerability"]
      style := { strokeColor := "#22c55e", strokeWidth := 2 } },
    { id := "indicates"
      name := "indicates"
      sourceTypes := ["indicator"]
      targetTypes := ["threat-actor", "campaign", "attack-pattern", "malware", "tool"]
      style := { strokeColor := "#14b8a6", strokeWidth := 2 } },
    { id := "attributed-to"
      name := "attributed to"
      sourceTypes := ["campaign", "threat-actor"]
      targetTypes := ["threat-actor", "asset"]
      style := { strokeColor := "#f43f5e", strokeWidth := 2, strokeStyle := .dashed } },
    { id := "located-at"
      name := "located at"
      sourceTypes := ["threat-actor", "asset", "campaign"]
      targetTypes := ["location"]
      style := { strokeColor := "#0ea5e9", strokeWidth := 1 } },
    { id := "exploits"
      name := "exploits"
      sourceTypes := ["malware", "tool", "attack-pattern", "threat-actor"]
      targetTypes := ["vulnerability"]
      style := { strokeColor := "#dc2626", strokeWidth := 2 } },
    { id := "variant-of"
      name := "variant of"
      sourceTypes := ["malware"]
      targetTypes := ["malware"]
      style := { strokeColor := "#a855f7", strokeWidth := 1, strokeStyle := .dotted } },
    { id := "derived-from"
      name := "derived from"
      sourceTypes := ["*"]
      targetTypes := ["*"]
      style := { strokeColor := "#94a3b8", strokeWidth := 1, strokeStyle := .dotted } },
    { id := "related-to"
      name := "related to"
      sourceTypes := ["*"]
      targetTypes := ["*"]
      directionality := .undirected
      style := { strokeColor := "#94a3b8", strokeWidth := 1, strokeStyle := .dashed } },
    { id := "delivers"
      name := "delivers"
      sourceTypes := ["malware", "tool", "attack-pattern"]
      targetTypes := ["malware"]
      style := { strokeColor := "#a855f7", strokeWidth := 2 } },
    { id := "sighted-at"
      name := "sighted at"
      sourceTypes := ["indicator", "malware", "attack-pattern", "threat-actor", "campaign", "tool"]
      targetTypes := ["asset", "location"]
      properties :=
        [{ id := "count", name := "Count", kind := .number }]
      style := { strokeColor := "#eab308", strokeWidth := 2, strokeStyle := .dashed } },
    { id := "detects"
      name := "detects"
      sourceTypes := ["sensor"]
      targetTypes := ["indicator", "attack-pattern", "malware"]
      style := { strokeColor := "#10b981", strokeWidth := 2 } },
    { id := "protects"
      name := "protects"
      sourceTypes := ["mitigation"]
      targetTypes := ["asset"]
      style := { strokeColor := "#22c55e", strokeWidth := 2, strokeStyle := .dashed } }]

def threatModelMappings : List Mapping :=
  [ { id := "indicator-implicates-actor"
      sourceType := some "indicator"
      priority := 10
      description :=
        "An indicator of a campaign also indicates the actor the campaign is attributed to"
      rule :=
        { kind := .path
          derived := some "indicates"
          via := [{ relationship := "indicates" }, { relationship := "attributed-to" }]
          targetTypes := some ["threat-actor"]
          severity := .high
          confidence := 75 } },
    { id := "malware-lineage"
      sourceType := some "malware"
      priority := 5
      description := "Variant lineage is transitive"
      rule :=
        { kind := .transitive
          derived := some "variant-of"
          via := [{ relationship := "variant-of" }]
          targetTypes := some ["malware"]
          severity := .low
          confidence := 90 } },
    { id := "mitigation-protects-asset"
      sourceType := some "mitigation"
      priority := 20
      description := "A mitigation of a technique protects every asset that technique targets"
      rule :=
        { kind := .path
          derived := some "protects"
          via := [{ relationship := "mitigates" }, { relationship := "targets" }]
          targetTypes := some ["asset"]
          severity := .medium
          confidence := 75 } },
    { id := "monitoring-detects-indicator"
      ontologyClass := some "d3f:PlatformMonitoring"
      priority := 30
      description := "Monitoring detects indicators observed on the same data source"
      rule :=
        { kind := .propertyMatch
          derived := some "detects"
          targetTypes := some ["indicator"]
          matchProperty := some "dataSource"
          attributes := .ofEntries [("coverage", (.str "active"))]
          severity := .info
          confidence := 85 } },
    { id := "vulnerability-mitigated"
      sourceType := some "vulnerability"
      priority := 0
      description := "Flag vulnerabilities that have at least one mitigation"
      rule :=
        { kind := .neighbors
          via := [{ relationship := "mitigates", direction := .inward }]
          targetTypes := some ["mitigation"]
          attributes := .ofEntries [("mitigated", (.bool true))] } },
    { id := "asset-exposure"
      sourceType := some "asset"
      priority := 0
      description := "Flag assets targeted by any adversary behaviour"
      rule :=
        { kind := .neighbors
          via := [{ relationship := "targets", direction := .inward }]
          attributes := .ofEntries [("exposed", (.bool true))] } }]

def threatModel : Preset where
  id := "threat-model"
  name := "Threat Model"
  version := "2.0.0"
  description :=
    "Cyber threat modeling with STIX-aligned node types and D3FEND-style defensive mappings"
  author := some "graphcanvas"
  nodeTypes := threatModelNodeTypes
  relationships := threatModelRelationships
  styling := { theme := .dark, primaryColor := "#6366f1", backgroundColor := "#0f172a",
               gridColor := "#1e293b", fontFamily := "Inter, sans-serif" }
  behavior := { snapToGrid := true, gridSize := 20, historyLimit := 100, maxNodes := 2000,
                maxEdges := 5000, enableInference := true, inferenceMaxPasses := some 3 }
  mappings := threatModelMappings

end GraphWorkbench.Library

import GraphWorkbench.Preset.Basic
/-!
The preset for general drawings of graphs and topologies.
-/
namespace GraphWorkbench.Library

def topologyNodeTypes : List NodeType :=
  [ { id := "node"
      name := "Node"
      category := "Basic"
      description := "Generic node"
      properties :=
        [{ id := "label", name := "Label", required := true },
          { id := "description", name := "Description" }]
      style := { color := "#3b82f6", borderColor := some "#2563eb",
                 backgroundColor := some "#dbeafe", icon := some "Circle",
                 shape := some .rounded } },
    { id := "process"
      name := "Process"
      category := "Flow"
      description := "A process step in a flowchart"
      properties :=
        [{ id := "label", name := "Label", required := true },
          { id := "duration", name := "Duration" }]
      style := { color := "#22c55e", borderColor := some "#16a34a",
                 backgroundColor := some "#dcfce7", icon := some "Play",
                 shape := some .rectangle } },
    { id := "decision"
      name := "Decision"
      category := "Flow"
      description := "A decision point in a flowchart"
      properties :=
        [{ id := "condition", name := "Condition", required := true }]
      style := { color := "#f59e0b", borderColor := some "#d97706",
                 backgroundColor := some "#fef3c7", icon := some "GitBranch",
                 shape := some .diamond } },
    { id := "endpoint"
      name := "Endpoint"
      category := "Flow"
      description := "Start or end point"
      properties :=
        [{ id := "kind", name := "Kind", kind := .choice, options := some ["start", "end"],
           default := (.str "start") }]
      style := { color := "#64748b", borderColor := some "#475569",
                 backgroundColor := some "#f1f5f9", icon := some "CircleDot",
                 shape := some .circle } },
    { id := "database"
      name := "Database"
      category := "Infrastructure"
      description := "Database or data store"
      properties :=
        [{ id := "name", name := "Name", required := true },
          { id := "engine", name := "Engine" }]
      style := { color := "#8b5cf6", borderColor := some "#7c3aed",
                 backgroundColor := some "#ede9fe", icon := some "Database",
                 shape := some .rectangle } },
    { id := "server"
      name := "Server"
      category := "Infrastructure"
      description := "Server or compute resource"
      properties :=
        [{ id := "hostname", name := "Hostname" },
          { id := "ip", name := "IP address" }]
      rules :=
        [{ property := "ip", check := .pattern,
           limit := (.str "^(\\d\x7b1,3\x7d\\.)\x7b3\x7d\\d\x7b1,3\x7d$"),
           message := some "must be a dotted IPv4 address" }]
      style := { color := "#06b6d4", borderColor := some "#0891b2",
                 backgroundColor := some "#cffafe", icon := some "Server",
                 shape := some .rectangle } },
    { id := "client"
      name := "Client"
      category := "Infrastructure"
      description := "Client device or application"
      properties :=
        [{ id := "name", name := "Name" },
          { id := "platform", name := "Platform" }]
      style := { color := "#ec4899", borderColor := some "#db2777",
                 backgroundColor := some "#fce7f3", icon := some "Monitor",
                 shape := some .rectangle } },
    { id := "cloud"
      name := "Cloud"
      category := "Infrastructure"
      description := "Cloud service or resource"
      properties :=
        [{ id := "provider", name := "Provider" },
          { id := "service", name := "Service" }]
      style := { color := "#0ea5e9", borderColor := some "#0284c7",
                 backgroundColor := some "#e0f2fe", icon := some "Cloud",
                 shape := some .hexagon } }]

def topologyRelationships : List Relationship :=
  [ { id := "connects"
      name := "connects"
      sourceTypes := ["node", "process", "decision", "endpoint", "database", "server", "client",
                      "cloud"]
      targetTypes := ["node", "process", "decision", "endpoint", "database", "server", "client",
                      "cloud"]
      directionality := .undirected
      style := { strokeColor := "#64748b", strokeWidth := 2 } },
    { id := "flows-to"
      name := "flows to"
      sourceTypes := ["process", "decision", "endpoint"]
      targetTypes := ["process", "decision", "endpoint"]
      style := { strokeColor := "#3b82f6", strokeWidth := 2 } },
    { id := "yes"
      name := "Yes"
      sourceTypes := ["decision"]
      targetTypes := ["process", "decision", "endpoint"]
      multiplicity := .oneToOne
      style := { strokeColor := "#22c55e", strokeWidth := 2 } },
    { id := "no"
      name := "No"
      sourceTypes := ["decision"]
      targetTypes := ["process", "decision", "endpoint"]
      multiplicity := .oneToOne
      style := { strokeColor := "#ef4444", strokeWidth := 2 } },
    { id := "reads"
      name := "reads"
      sourceTypes := ["server", "client", "process"]
      targetTypes := ["database"]
      style := { strokeColor := "#8b5cf6", strokeWidth := 2 } },
    { id := "writes"
      name := "writes"
      sourceTypes := ["server", "client", "process"]
      targetTypes := ["database"]
      style := { strokeColor := "#8b5cf6", strokeWidth := 2, strokeStyle := .dashed } },
    { id := "calls"
      name := "calls"
      sourceTypes := ["client", "server", "process"]
      targetTypes := ["server", "cloud"]
      style := { strokeColor := "#06b6d4", strokeWidth := 2 } },
    { id := "depends-on"
      name := "depends on"
      sourceTypes := ["server", "client", "cloud", "database"]
      targetTypes := ["server", "client", "cloud", "database"]
      multiplicity := .oneToMany
      style := { strokeColor := "#f59e0b", strokeWidth := 2, strokeStyle := .dotted } }]

def topology : Preset where
  id := "topo"
  name := "Topo-Graph"
  version := "2.0.0"
  description := "General-purpose graph and topology diagramming"
  author := some "graphcanvas"
  nodeTypes := topologyNodeTypes
  relationships := topologyRelationships
  styling := { theme := .light, primaryColor := "#3b82f6", backgroundColor := "#ffffff",
               gridColor := "#e2e8f0", fontFamily := "Inter, sans-serif" }
  behavior := { snapToGrid := true, gridSize := 20, historyLimit := 100, maxNodes := 1000,
                maxEdges := 2000, enableInference := false }

end GraphWorkbench.Library

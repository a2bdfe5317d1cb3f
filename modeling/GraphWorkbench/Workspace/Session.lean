import GraphWorkbench.Inference.Coverage
import GraphWorkbench.Preset.Load
import GraphWorkbench.Stix.Import
import GraphWorkbench.Workspace.Settings
/-!
Workspace sessions: one preset in use and its document. Taking another preset starts an empty
document; the events told so far are kept.
-/
namespace GraphWorkbench.Workspace

structure Session where
  settings : Settings
  store : Store

namespace Session

/-- An empty document of a preset in a store of its own. -/
def emptyStore (p : Preset) (log : EventLog Notice) : Except Fault Store :=
  Store.create p (Document.blank p) none log

/-- A session with the preset that the settings name. -/
def start (settings : Settings) : Except Fault Session := do
  settings.checkLogLevel
  let preset ← Library.find settings.preset
  let log ← EventLog.ofLimit settings.eventLimit
  return { settings, store := ← emptyStore preset log }

def usePreset (s : Session) (p : Preset) : Except Fault Session := do
  return { s with store := ← emptyStore p s.store.log }

/-- The document in exchange form, with what can be done to it. -/
def document (s : Session) : Json :=
  .obj (s.store.document.exportFields ++
    [("can_undo", .bool s.store.history.canUndo), ("can_redo", .bool s.store.history.canRedo)])

/-- The shipped presets, with a mark at the one in use. -/
def presets (s : Session) : Json :=
  .arr <| Library.shipped.map fun (_, p) =>
    .obj [("id", .str p.id), ("name", .str p.name), ("version", .str p.version),
      ("description", .str p.description), ("active", .bool (p.id == s.store.preset.id))]

def inference (s : Session) : Except Fault Inference :=
  Inference.recompute s.store.preset s.store.document s.settings.passes

def nodeInference (s : Session) (node : String) : Except Stop Inference.NodeInference :=
  Inference.ofNode s.store.preset s.store.document node s.settings.passes

def coverage (s : Session) : Except Fault Coverage := do
  return Coverage.ofInference s.store.preset s.store.document (← s.inference)

/-- What can be undone, the oldest first, and the events that are kept. -/
def chronicle (s : Session) : Json :=
  .obj [("undo", .arr (s.store.history.entries.map fun e =>
      .obj [("label", .str e.1), ("changes", .int e.2)])),
    ("events", .arr (s.store.log.entries.map fun n => n.toEvent.toJson))]

end Session

end GraphWorkbench.Workspace

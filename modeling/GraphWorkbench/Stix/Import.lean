import GraphWorkbench.Document.Store
import GraphWorkbench.Stix.Mapping
/-!
Importing a bundle into a store. What the store would refuse is left out; the rest is committed as
one batch, which is undone in one step.
-/
namespace GraphWorkbench.Stix

/-- What an import came to. -/
structure Summary where
  objectsRead : Nat
  nodesCreated : Nat
  edgesCreated : Nat
  skipped : Nat
  unknown : List UnknownType
  warnings : List Warning
  issues : List Issue
  byType : Table Nat

def Summary.toJson (s : Summary) : Json :=
  .obj [("objects_read", .int s.objectsRead), ("nodes_created", .int s.nodesCreated),
    ("edges_created", .int s.edgesCreated), ("skipped", .int s.skipped),
    ("warnings", .arr (s.unknown.map UnknownType.toJson ++ s.warnings.map Warning.toJson)),
    ("errors", .arr (s.issues.map Issue.toJson)),
    ("by_type", .obj (s.byType.entries.map fun e => (e.1, .int e.2)))]

/-- Why an import came to nothing. -/
inductive ImportError where
  | bundle (e : BundleError)
  | cancelled
  | stop (s : Stop)

def cancellationText : String := "Import was cancelled before commit"

def cancellationJson : Json :=
  .obj [("code", .str "import-cancelled"), ("message", .str cancellationText)]

def importLabel : String := "Import STIX bundle"

/-- Stages items one by one on a draft. Those that are refused become issues. -/
def stageItems (p : Preset) : Draft → Candidate → List Item → Except Fault (Candidate × List Item)
  | _, c, [] => .ok (c, [])
  | draft, c, item :: rest => match draft.stage p item.mutation with
    | (draft, none) => (stageItems p draft c rest).map fun (c, accepted) => (c, item :: accepted)
    | (draft, some (.rejected r)) =>
      let issue : Issue :=
        { index := item.index, id := some item.id, type := some item.kind.word, cause := .rejected r }
      stageItems p draft { c with issues := c.issues ++ [issue] } rest
    | (_, some (.fault f)) => .error f

/-- The candidate after staging all its items, and the items that were accepted. -/
def stage (p : Preset) (d : Document) (c : Candidate) : Except Fault (Candidate × List Item) :=
  stageItems p (Draft.start d) c c.items

def isNodeItem (item : Item) : Bool :=
  match item.mutation with
  | .addNode _ => true
  | _ => false

def isEdgeItem (item : Item) : Bool :=
  match item.mutation with
  | .addEdge _ => true
  | _ => false

/-- The summary of an import. Objects of unknown types count as skipped; issues come in the order of
the bundle. -/
def summarize (b : Bundle) (report : ValidationReport) (c : Candidate) (accepted : List Item) :
    Summary :=
  let byType := report.unknown.foldl (fun (t : Table Nat) u =>
    t.put u.type ((t.get? u.type).getD 0 + 1)) c.byType
  { objectsRead := b.objects.length
    nodesCreated := accepted.countP isNodeItem
    edgesCreated := accepted.countP isEdgeItem
    skipped := c.skipped + report.unknown.length
    unknown := report.unknown
    warnings := c.warnings
    issues := (report.issues ++ c.issues).mergeSort fun a b => a.index ≤ b.index
    byType := .ofEntries (byType.entries.mergeSort fun a b => a.1 ≤ b.1) }

/-- Commits accepted items as one batch, if there are any. -/
def commit (s : Store) (accepted : List Item) : Store × Except Stop Unit :=
  if accepted.isEmpty then (s, .ok ())
  else
    let (s, r) := s.apply (.batch (some importLabel) (accepted.map Item.mutation))
    (s, r.map fun _ => ())

/-- Tells of a finished import, and of its issues if there are any. -/
def announce (s : Store) (summary : Summary) : Store :=
  let log := s.log.record (.told ⟨"importCompleted", .obj [("summary", summary.toJson)]⟩)
  let log := if summary.issues.isEmpty then log
    else
      let errors := Json.arr (summary.issues.map Issue.toJson)
      log.record (.told ⟨"validationFailed", .obj [("errors", errors)]⟩)
  { s with log }

/-- What an import would commit to a store. -/
def prepare (s : Store) (o : Options) (origin : Bundle.Origin) :
    Except ImportError (Bundle × ValidationReport × Candidate × List Item) := do
  let faulty {α : Type} (r : Except Fault α) : Except ImportError α :=
    r.mapError fun f => .stop (.fault f)
  let b ← (← faulty (Bundle.read origin)).mapError .bundle
  let report := validate b
  let mapped ← faulty (mapToGraph s.preset o s.document report.valid)
  let (c, accepted) ← faulty (stage s.preset s.document mapped)
  return (b, report, c, accepted)

/-- Imports a bundle. A cancelled import ends before anything is committed. -/
def importInto (s : Store) (o : Options) (origin : Bundle.Origin) (cancelled : Bool) :
    Store × Except ImportError Summary :=
  match prepare s o origin with
  | .error e => (s, .error e)
  | .ok (b, report, c, accepted) =>
    if cancelled then (s, .error .cancelled)
    else match commit s accepted with
      | (s, .error stop) => (s, .error (.stop stop))
      | (s, .ok ()) =>
        let summary := summarize b report c accepted
        (announce s summary, .ok summary)

end GraphWorkbench.Stix

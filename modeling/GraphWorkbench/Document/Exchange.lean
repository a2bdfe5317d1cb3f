import GraphWorkbench.Document.Draft
import GraphWorkbench.Preset.Basic
/-!
Loading documents from their exchange form. Every element is checked against the preset as if it
were added by hand; one report names all that is wrong.
-/
namespace GraphWorkbench

def Document.blank (p : Preset) (title : String := untitled) : Document :=
  { metadata := { presetId := p.id, presetVersion := p.version, title } }

namespace Exchange

/-- A list of elements of the exchange form; one that is not given is empty. -/
def elements (fields : List (String × Json)) (key : String) : List Json × List Violation :=
  match Entries.get? key fields with
  | none => ([], [])
  | some (.arr items) => (items, [])
  | some _ => ([], [⟨key, s!"'{key}' must be a list", "invalid-type"⟩])

/-- The fields of the metadata; what counts as false stands for none. -/
def metadataFields (fields : List (String × Json)) : List (String × Json) × List Violation :=
  match Entries.get? "metadata" fields with
  | some (.obj metadata) => (metadata, [])
  | some v =>
    ([], if v.isTruthy then [⟨"metadata", "'metadata' must be an object", "invalid-type"⟩] else [])
  | none => ([], [])

/-- A document written for another preset is not loaded. -/
def presetMismatch (p : Preset) (metadata : List (String × Json)) : List Violation :=
  match Entries.get? "presetId" metadata with
  | none => []
  | some declared =>
    if declared.same (.str p.id) then []
    else
      let message := s!"Document was authored with preset '{declared.text}', not '{p.id}'"
      [⟨"metadata.presetId", message, "preset-mismatch"⟩]

def titleOf (metadata : List (String × Json)) : String :=
  match Entries.get? "title" metadata with
  | some v => if v.isTruthy then v.text else untitled
  | none => untitled

/-- A draft with the violations met so far. -/
abbrev Loading := Draft × List Violation

/-- Stages the mutation that adds an element standing at a place. -/
def stageAt (p : Preset) (place : String) (state : Loading) (m : Mutation) : Except Fault Loading :=
  match state.1.stage p m with
  | (draft, none) => .ok (draft, state.2)
  | (draft, some (.rejected r)) => .ok (draft, state.2 ++ [⟨place, r.message, r.code⟩])
  | (_, some (.fault f)) => .error f

/-- Reads an element and stages what it asks for, if anything. -/
def loadElement {α : Type} (p : Preset) (kind : String) (decode : Json → Schema.Decoded α)
    (mutation? : α → Option Mutation) (state : Loading) (item : Json × Nat) : Except Fault Loading :=
  let place := s!"{kind}.{item.2}"
  match decode item.1 with
  | .error issues =>
    .ok (state.1, state.2 ++ issues.map fun i =>
      ⟨Schema.pathText (.key kind :: .index item.2 :: i.path), i.flaw.message, i.flaw.code⟩)
  | .ok element => match mutation? element with
    | some m => stageAt p place state m
    | none => .ok state

/-- Edges marked as inferred are passed over. -/
def authored? (e : Edge) : Option Mutation := if e.inferred then none else some (.addEdge e)

def load (p : Preset) (v : Json) : Except Fault (Except (List Violation) Document) := do
  match v with
  | .obj fields =>
    let (metadata, notObject) := metadataFields fields
    let draft := Draft.start (Document.blank p (titleOf metadata))
    let (nodes, notNodes) := elements fields "nodes"
    let state ← nodes.zipIdx.foldlM (loadElement p "nodes" Node.decode (some ∘ .addNode))
      (draft, notObject ++ presetMismatch p metadata ++ notNodes)
    let (edges, notEdges) := elements fields "edges"
    let (draft, violations) ← edges.zipIdx.foldlM (loadElement p "edges" Edge.decode authored?)
      (state.1, state.2 ++ notEdges)
    return if violations.isEmpty then .ok draft.result else .error violations
  | _ => return .error [⟨"root", "Document must be a JSON object", "invalid-type"⟩]

/-- The heading of a report on a refused document. -/
def refusalText (violations : List Violation) : String :=
  s!"Document rejected with {violations.length} error(s)"

def refusalJson (violations : List Violation) : Json :=
  Violation.reportJson "document-load-error" (refusalText violations) violations

end Exchange

end GraphWorkbench

import GraphWorkbench.Document.Format
import GraphWorkbench.Inference.Targets
import GraphWorkbench.Preset.Words
/-!
Deriving edges and attributes from the mappings of a preset. Mappings are taken by priority and then
in the order of the preset; of two that join the same nodes the later one counts. Derived edges must
pass the checks of authored ones, and are the ground of the next pass until nothing changes.
-/
namespace GraphWorkbench

/-- An edge that a mapping derives, with the standing of the mapping. -/
structure DerivedEdge where
  id : String
  relationship : String
  source : String
  target : String
  mapping : String
  priority : Int
  severity : Severity
  confidence : Nat
deriving DecidableEq

def DerivedEdge.toEdge (e : DerivedEdge) : Edge :=
  { id := e.id, typeId := e.relationship, source := e.source, target := e.target
    properties := .ofEntries [("mappingId", .str e.mapping), ("priority", .int e.priority),
      ("severity", .str e.severity.word), ("confidence", .int e.confidence)]
    inferred := true }

/-- The attributes derived for nodes. -/
abbrev Attributes := Table (Table Json)

/-- What the passes came to. -/
structure Inference where
  edges : List DerivedEdge := []
  attributes : Attributes := .empty
  passes : Nat := 0
  converged : Bool := true

namespace Inference

/-- The number of passes unless the preset or a caller says otherwise. -/
def defaultPasses : Int := 3

def passLimit (p : Preset) (default : Int) : Int :=
  match p.behavior.inferenceMaxPasses with
  | some n => n
  | none => default

/-- The mappings in the order in which they are taken. -/
def mappings (p : Preset) : List Mapping := p.mappings.mergeSort fun a b => a.priority ≤ b.priority

def enabled (p : Preset) : Bool := p.behavior.enableInference && !p.mappings.isEmpty

def classOf (p : Preset) (typeId : String) : Option String :=
  (p.governing? typeId).bind (·.ontologyClass)

/-- The mappings for the nodes of a type: those for the type and those for its class. -/
def mappingsFor (p : Preset) (typeId : String) : List Mapping :=
  (mappings p).filter fun m =>
    m.sourceType == some typeId ||
      (m.ontologyClass.isSome && m.ontologyClass == classOf p typeId)

/-- What one pass gathers: for each pair of nodes the edge derived last, and attributes. -/
structure Harvest where
  edges : List DerivedEdge := []
  attributes : Attributes := .empty

/-- Puts an edge last, in place of one that joins the same nodes. -/
def Harvest.put (h : Harvest) (e : DerivedEdge) : Harvest :=
  { h with edges :=
      (h.edges.filter fun o => !(o.source == e.source && o.target == e.target)) ++ [e] }

def Harvest.describe (h : Harvest) (node : String) (attributes : Table Json) : Harvest :=
  if attributes.isEmpty then h
  else { h with attributes :=
    h.attributes.put node (((h.attributes.get? node).getD .empty).merge attributes) }

def known {α : Type} (key : String) (x : Option α) : Except Fault α :=
  match x with
  | some a => .ok a
  | none => .error (.noKey key)

def typeIdOf (d : Document) (node : String) : Except Fault String :=
  (known node (d.nodes.get? node)).map (·.typeId)

def takesType (types : Option (List String)) (typeId : String) : Bool :=
  match types with
  | some ts => declares ts typeId
  | none => true

/-- The targets of a mapping for a node that are of the wanted types. -/
def targetsOf (d : Document) (v : GraphView) (n : Node) (m : Mapping) :
    Except Fault (List String) := do
  (← v.targets m.rule n.id).filterM fun t => do
    if t == n.id then return false
    return takesType m.rule.targetTypes (← typeIdOf d t)

/-- Whether an authored edge of a relationship joins two nodes already. -/
def isAuthored (d : Document) (r : Relationship) (source target : String) : Bool :=
  d.edges.values.any fun e => e.typeId == r.id &&
    ((e.source == source && e.target == target) ||
      (r.directionality != .directed && e.source == target && e.target == source))

def deriveEdge (p : Preset) (d : Document) (n : Node) (m : Mapping) (r : Relationship)
    (source : NodeType) (h : Harvest) (target : String) : Except Fault Harvest := do
  let typeId ← typeIdOf d target
  let targetType ← known typeId (p.governing? typeId)
  if !r.fits source targetType || isAuthored d r n.id target then return h
  return h.put
    { id := s!"inferred--{m.id}--{n.id}--{target}", relationship := r.id
      source := n.id, target
      mapping := m.id, priority := m.priority
      severity := m.rule.severity, confidence := m.rule.confidence }

def applyMapping (p : Preset) (d : Document) (v : GraphView) (n : Node) (h : Harvest)
    (m : Mapping) : Except Fault Harvest := do
  let targets ← targetsOf d v n m
  if targets.isEmpty then return h
  let h := h.describe n.id m.rule.attributes
  match m.rule.derived with
  | none => return h
  | some name =>
    let r ← known name (p.ruling? name)
    let source ← known n.typeId (p.governing? n.typeId)
    targets.foldlM (deriveEdge p d n m r source) h

/-- All that the mappings give for the nodes of a document, node by node. -/
def harvest (p : Preset) (d : Document) (v : GraphView) : Except Fault Harvest :=
  d.nodes.values.foldlM (fun h n => (mappingsFor p n.typeId).foldlM (applyMapping p d v n) h) {}

/-- Keeps the edges that find room beside the authored ones and those kept before, in the order
given. An edge kept under an id hides an authored one of that id. -/
def keepWithin (p : Preset) (d : Document) (candidates : List DerivedEdge) :
    Except Fault (Table DerivedEdge) :=
  candidates.foldlM (fun kept e => do
    let r ← known e.relationship (p.ruling? e.relationship)
    let others := d.edges.merge (kept.mapValues DerivedEdge.toEdge)
    match checkMultiplicity r e.toEdge others.values true with
    | .ok _ => return kept.put e.id e
    | .error (.fault f) => throw f
    | .error (.rejected _) => return kept) .empty

/-- The higher priority comes first, and of equal ones the lower id. -/
def ranksBefore (a b : DerivedEdge) : Bool :=
  b.priority < a.priority || (a.priority == b.priority && a.id ≤ b.id)

/-- One pass over a document with the edges of the pass before. -/
def pass (p : Preset) (d : Document) (derived : List DerivedEdge) :
    Except Fault (List DerivedEdge × Attributes) := do
  let h ← harvest p d (GraphView.ofDocument p d (derived.map DerivedEdge.toEdge))
  let kept ← keepWithin p d (h.edges.mergeSort ranksBefore)
  return (kept.values.mergeSort fun a b => a.id ≤ b.id, h.attributes)

/-- The graver one comes first, and of equal ones the lower id. -/
def graver (a b : DerivedEdge) : Bool :=
  a.severity.rank < b.severity.rank || (a.severity == b.severity && a.id ≤ b.id)

def sameAttributes (a b : Attributes) : Bool := a.sameBy (fun s t => s.sameBy Json.same t) b

/-- Passes until nothing changes or their number is used up. -/
def settle (p : Preset) (d : Document) :
    Nat → Nat → List DerivedEdge → Attributes → Except Fault Inference
  | 0, done, edges, attributes =>
    .ok { edges := edges.mergeSort graver, attributes, passes := done, converged := false }
  | left + 1, done, edges, attributes => do
    let (edges', attributes') ← pass p d edges
    if edges' = edges ∧ sameAttributes attributes' attributes then
      return { edges := edges.mergeSort graver, attributes, passes := done + 1, converged := true }
    settle p d left (done + 1) edges' attributes'

/-- Derives all that a preset derives from a document. -/
def recompute (p : Preset) (d : Document) (default : Int := defaultPasses) : Except Fault Inference :=
  if enabled p then settle p d (passLimit p default).toNat 0 [] .empty else .ok {}

/-- The warning of passes that ended too early. -/
def warning (i : Inference) : Option String :=
  if i.converged then none
  else some s!"Derived set still changing after {i.passes} pass(es); returning the last pass"

def fields (i : Inference) : List (String × Json) :=
  [("edges", .arr (i.edges.map fun e => e.toEdge.toJson)),
    ("attributes", .obj (i.attributes.entries.map fun e => (e.1, .ofTable e.2))),
    ("passes", .int i.passes), ("converged", .bool i.converged),
    ("warnings", .arr (match i.warning with
      | none => []
      | some text => [.obj [("passes", .int i.passes), ("message", .str text),
          ("code", .str "inference-non-convergence")]]))]

def toJson (i : Inference) : Json := .obj i.fields

/-- What was derived for one node. -/
structure NodeInference where
  node : String
  edges : List DerivedEdge
  attributes : Table Json
  converged : Bool

/-- The part of all derivations that touches a node. -/
def ofNode (p : Preset) (d : Document) (node : String) (default : Int := defaultPasses) :
    Except Stop NodeInference := do
  if !d.nodes.has node then throw (.rejected (.noNode node))
  let i ← Stop.ofFault (recompute p d default)
  return { node
           edges := i.edges.filter fun e => e.source == node || e.target == node
           attributes := (i.attributes.get? node).getD .empty
           converged := i.converged }

def NodeInference.toJson (i : NodeInference) : Json :=
  .obj [("node_id", .str i.node), ("edges", .arr (i.edges.map fun e => e.toEdge.toJson)),
    ("attributes", .ofTable i.attributes), ("converged", .bool i.converged)]

end Inference

end GraphWorkbench

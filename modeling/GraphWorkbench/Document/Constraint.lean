import GraphWorkbench.Document.Basic
import GraphWorkbench.Document.Value
/-!
Nodes and edges against the preset of their document. Where a preset declares an id more than once,
which a valid one does not, the last declaration counts.
-/
namespace GraphWorkbench

namespace Preset

/-- The node type that governs the nodes of a type. -/
def governing? (p : Preset) (typeId : String) : Option NodeType :=
  p.nodeTypes.reverse.find? (·.id == typeId)

/-- The relationship that governs the edges of a type. -/
def ruling? (p : Preset) (typeId : String) : Option Relationship :=
  p.relationships.reverse.find? (·.id == typeId)

def typeOf (p : Preset) (n : Node) : Except Stop NodeType :=
  match p.governing? n.typeId with
  | some t => .ok t
  | none => .error (.rejected (.unknownNodeType n.id n.typeId p.id))

def relationshipOf (p : Preset) (e : Edge) : Except Stop Relationship :=
  match p.ruling? e.typeId with
  | some r => .ok r
  | none => .error (.rejected (.unknownRelationship e.id e.typeId p.id))

end Preset

/-- Whether a list of the only allowed relationships, if there is one, has a relationship. -/
def isAllowed (allowed : Option (List String)) (relationship : String) : Bool :=
  match allowed with
  | some names => names.contains relationship
  | none => true

/-- Whether a relationship can lead from one type to another. -/
def Relationship.leads (r : Relationship) (source target : NodeType) : Bool :=
  declares r.sourceTypes source.id && declares r.targetTypes target.id &&
    isAllowed source.outgoing r.id && isAllowed target.incoming r.id

/-- Whether a relationship can join two types, in either order unless it is directed. -/
def Relationship.fits (r : Relationship) (source target : NodeType) : Bool :=
  r.leads source target || (r.directionality != .directed && r.leads target source)

/-- Whether two edges of a relationship are more than its multiplicity admits. -/
def Relationship.clashes (r : Relationship) (e other : Edge) : Bool :=
  match r.multiplicity, r.directionality with
  | .manyToMany, _ => false
  | .oneToOne, .directed => other.source == e.source || other.target == e.target
  | .oneToOne, _ => other.touches e.source || other.touches e.target
  | .oneToMany, .directed => other.target == e.target
  | .oneToMany, _ => other.touches e.target

/-- An edge against the others of its relationship. Inferred edges count only when asked for. -/
def checkMultiplicity (r : Relationship) (e : Edge) (edges : List Edge) (countInferred : Bool) :
    Except Stop Unit :=
  let rivals := edges.filter fun o =>
    o.typeId == r.id && o.id != e.id && (countInferred || !o.inferred)
  if rivals.any (r.clashes e) then .error (.rejected (.tooMany e.id r.id r.multiplicity)) else .ok ()

namespace Preset

def checkNode (p : Preset) (n : Node) : Except Stop Unit := do
  let t ← p.typeOf n
  checkProperties n.id t.properties t.rules n.properties

/-- The node at an end of an edge. -/
def endOf (nodes : Table Node) (e : Edge) (key : String) : Except Stop Node :=
  match nodes.get? key with
  | some n => .ok n
  | none => .error (.rejected (.missingEnd e.id key))

def checkEdge (p : Preset) (nodes : Table Node) (edges : Table Edge) (e : Edge) :
    Except Stop Unit := do
  let r ← p.relationshipOf e
  let source ← endOf nodes e e.source
  let target ← endOf nodes e e.target
  let sourceType ← p.typeOf source
  let targetType ← p.typeOf target
  if !r.fits sourceType targetType then
    throw (.rejected (.unfitEnds e.id r.id sourceType.id targetType.id))
  checkMultiplicity r e edges.values false
  checkProperties e.id r.properties [] e.properties

/-- Whether one more node has room. -/
def checkNodeRoom (p : Preset) (count : Nat) (id : String) : Except Stop Unit :=
  if p.behavior.maxNodes ≤ count then .error (.rejected (.nodesFull id p.behavior.maxNodes))
  else .ok ()

def checkEdgeRoom (p : Preset) (count : Nat) (id : String) : Except Stop Unit :=
  if p.behavior.maxEdges ≤ count then .error (.rejected (.edgesFull id p.behavior.maxEdges))
  else .ok ()

end Preset

end GraphWorkbench

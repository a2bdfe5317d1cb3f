import GraphWorkbench.Json.Basic
/-!
Graph documents: nodes and edges under their keys, in the order in which they came in. Elements are
compared by value, whatever the order of properties and however a number is written.
-/
namespace GraphWorkbench

/-- Where a node is drawn. -/
structure Position where
  x : Binary64 := 0
  y : Binary64 := 0
deriving DecidableEq, Inhabited

structure Node where
  id : String
  typeId : String
  properties : Table Json := .empty
  position : Position := {}
deriving DecidableEq, Inhabited

structure Edge where
  id : String
  typeId : String
  source : String
  target : String
  properties : Table Json := .empty
  inferred : Bool := false
deriving DecidableEq, Inhabited

def untitled : String := "Untitled graph"

structure Metadata where
  presetId : String
  presetVersion : String
  title : String := untitled
deriving DecidableEq, Inhabited

/-- The state of a document. -/
structure Document where
  metadata : Metadata
  nodes : Table Node := .empty
  edges : Table Edge := .empty
deriving DecidableEq, Inhabited

/-- Equality of numbers by value; what is no number differs from itself. -/
def Position.equal (p q : Position) : Bool := p.x.value.eq q.x.value && p.y.value.eq q.y.value

/-- Equality of numbers by value; what is no number is the same as itself. -/
def Position.same (p q : Position) : Bool := p.x.value.alike q.x.value && p.y.value.alike q.y.value

def Node.same (a b : Node) : Bool :=
  a.id == b.id && a.typeId == b.typeId && a.properties.sameBy Json.same b.properties &&
    a.position.same b.position

def Edge.same (a b : Edge) : Bool :=
  a.id == b.id && a.typeId == b.typeId && a.source == b.source && a.target == b.target &&
    a.properties.sameBy Json.same b.properties && a.inferred == b.inferred

/-- Sameness of documents, whatever the order of their elements. -/
def Document.same (a b : Document) : Bool :=
  a.metadata == b.metadata && a.nodes.sameBy Node.same b.nodes && a.edges.sameBy Edge.same b.edges

/-- Whether an edge has a node at one of its ends. -/
def Edge.touches (e : Edge) (node : String) : Bool := e.source == node || e.target == node

/-- The edges at a node, in the order of the document. -/
def Document.edgesAt (d : Document) (node : String) : List Edge :=
  d.edges.values.filter (·.touches node)

end GraphWorkbench

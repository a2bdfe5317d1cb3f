import GraphWorkbench.Document.Basic
import GraphWorkbench.Document.Constraint
/-!
The graph that derivations are made on: the nodes of a document and its edges, together with edges
derived before. An edge of a relationship that is not directed can be followed both ways. What can be
reached is looked up in a plainer graph, that of one relationship alone.
-/
namespace GraphWorkbench

/-- A way from a node to another. Two links of the same ends and key are one. -/
structure Link where
  source : String
  target : String
  key : String
  typeId : String
deriving DecidableEq

/-- The nodes, in order, with their properties where they are known, and the links between them. -/
structure GraphView where
  nodes : Table (Option (Table Json)) := .empty
  links : List Link := []

/-- Nodes with arcs from one to another, at most one each way between two nodes. -/
structure Chain where
  nodes : List String
  arcs : List (String × String)

namespace Chain

def successors (c : Chain) (node : String) : List String :=
  (c.arcs.filter fun a => a.1 == node).map (·.2)

def predecessors (c : Chain) (node : String) : List String :=
  (c.arcs.filter fun a => a.2 == node).map (·.1)

/-- The same nodes, with arcs both ways wherever there is one. -/
def undirected (c : Chain) : Chain :=
  { c with arcs := (c.arcs ++ c.arcs.map fun a => (a.2, a.1)).eraseDups }

/-- The nodes not seen yet that come next after the latest ones. -/
def fresh (next : String → List String) (latest seen : List String) : List String :=
  ((latest.flatMap next).filter fun n => !seen.contains n).eraseDups

/-- Spreads from the nodes reached last to nodes not seen yet, for a number of rounds. -/
def spread (next : String → List String) : Nat → List String → List String → List String
  | 0, _, seen => seen
  | rounds + 1, latest, seen =>
    let found := fresh next latest seen
    if found.isEmpty then seen else spread next rounds found (seen ++ found)

/-- A node, and what is reached from it. Every round but the last reaches a new node. -/
def reached (c : Chain) (next : String → List String) (node : String) : List String :=
  spread next c.nodes.length [node] [node]

def descendants (c : Chain) (node : String) : List String :=
  (c.reached c.successors node).filter (· != node)

def ancestors (c : Chain) (node : String) : List String :=
  (c.reached c.predecessors node).filter (· != node)

/-- The nodes connected with a node, whichever way the arcs lead, and the node itself. -/
def component (c : Chain) (node : String) : List String :=
  c.undirected.reached c.undirected.successors node

end Chain

namespace GraphView

def Link.sameWay (a b : Link) : Bool :=
  a.source == b.source && a.target == b.target && a.key == b.key

/-- Adds a link in the place of an old one of the same ends and key, or else last. -/
def putLink (l : Link) : List Link → List Link
  | [] => [l]
  | a :: rest => if Link.sameWay a l then l :: rest else a :: putLink l rest

/-- Adds a node of which nothing is known, unless it is there. -/
def mention (v : GraphView) (node : String) : GraphView :=
  if v.nodes.has node then v else { v with nodes := v.nodes.put node none }

def addLink (v : GraphView) (l : Link) : GraphView :=
  let v := (v.mention l.source).mention l.target
  { v with links := putLink l v.links }

/-- Adds an edge, and the way back when its relationship is known and not directed. -/
def addEdge (p : Preset) (v : GraphView) (e : Edge) : GraphView :=
  let v := v.addLink ⟨e.source, e.target, e.id, e.typeId⟩
  match p.ruling? e.typeId with
  | some r =>
    if r.directionality == .directed then v
    else v.addLink ⟨e.target, e.source, s!"{e.id}~reverse", e.typeId⟩
  | none => v

def ofDocument (p : Preset) (d : Document) (derived : List Edge) : GraphView :=
  let nodes := d.nodes.values.foldl (fun t n => t.put n.id (some n.properties)) .empty
  (d.edges.values ++ derived).foldl (addEdge p) { nodes }

/-- The nodes that a name stands for: the node of that name or else, letter by letter, the nodes
named by a single letter of it. -/
def startsOf (v : GraphView) (name : String) : List String :=
  if v.nodes.has name then [name]
  else ((name.toList.map fun c => String.ofList [c]).filter v.nodes.has).eraseDups

/-- The nodes that links of a type lead to from a node, in the order in which the node was first
linked to them by links of any type. -/
def after (v : GraphView) (typeId node : String) : List String :=
  let out := v.links.filter fun l => l.source == node
  (out.map (·.target)).eraseDups.filter fun t =>
    out.any fun l => l.target == t && l.typeId == typeId

/-- The nodes from which links of a type lead to a node, in the order in which they were first
linked to it by links of any type. -/
def before (v : GraphView) (typeId node : String) : List String :=
  let incoming := v.links.filter fun l => l.target == node
  (incoming.map (·.source)).eraseDups.filter fun s =>
    incoming.any fun l => l.source == s && l.typeId == typeId

/-- The nodes one step away from what a name stands for. -/
def step (v : GraphView) (s : PathStep) (name : String) : List String :=
  let starts := v.startsOf name
  let outward := starts.flatMap (v.after s.relationship)
  let inward := starts.flatMap (v.before s.relationship)
  let found := match s.direction with
    | .outward => outward
    | .inward => inward
    | .either => outward ++ inward
  found.eraseDups

/-- The graph of one relationship: all nodes, and an arc from one to another where links of that
relationship lead, however many. -/
def chain (v : GraphView) (typeId : String) : Chain where
  nodes := v.nodes.keys
  arcs := ((v.links.filter fun l => l.typeId == typeId).map fun l => (l.source, l.target)).eraseDups

/-- The other nodes that can be reached from a node by repeating a step. -/
def reachable (v : GraphView) (s : PathStep) (node : String) : List String :=
  let c := v.chain s.relationship
  match s.direction with
  | .outward => c.descendants node
  | .inward => c.ancestors node
  | .either => (c.component node).filter (· != node)

/-- What can be reached, in the order of the graph. -/
def reach (v : GraphView) (s : PathStep) (node : String) : List String :=
  (v.reachable s node).mergeSort fun a b => v.nodes.keys.idxOf a ≤ v.nodes.keys.idxOf b

end GraphView

end GraphWorkbench

import GraphWorkbench.Document.Constraint
import GraphWorkbench.Document.Mutation
import GraphWorkbench.Document.Patch
/-!
Drafts: working copies of a document on which mutations are staged. Every change is recorded, so
that a draft can be taken back to an earlier mark, and a refused mutation leaves no trace. A
fault, which is no refusal, leaves what was done before it.
-/
namespace GraphWorkbench

/-- A working copy, with the changes made to it, the latest first. -/
structure Draft where
  base : Document
  working : Document
  log : List ElementChange := []

namespace Draft

def start (d : Document) : Draft := { base := d, working := d }

/-- The changes so far, in order. -/
def patch (d : Draft) : Patch := d.log.reverse

def mark (d : Draft) : Nat := d.log.length

/-- What the draft amounts to: the very start, when no change is on record. -/
def result (d : Draft) : Document := if d.log.isEmpty then d.base else d.working

/-- Makes a change and records it. -/
def make (d : Draft) (c : ElementChange) : Except Fault Draft := do
  let working ← c.apply d.working
  return { d with working, log := c :: d.log }

/-- The value under a key, with the place of the key. -/
def entry {α : Type} (t : Table α) (key : String) : Except Fault (α × Int) :=
  match t.get? key, t.indexOf? key with
  | some value, some i => .ok (value, i)
  | _, _ => .error (.noKey key)

def insertNode (d : Draft) (key : String) (n : Node) : Except Fault Draft :=
  d.make (.node (.insert key d.working.nodes.size n))

def insertEdge (d : Draft) (key : String) (e : Edge) : Except Fault Draft :=
  d.make (.edge (.insert key d.working.edges.size e))

def replaceNode (d : Draft) (key : String) (n : Node) : Except Fault Draft := do
  let (before, i) ← entry d.working.nodes key
  d.make (.node (.replace key i before n))

def replaceEdge (d : Draft) (key : String) (e : Edge) : Except Fault Draft := do
  let (before, i) ← entry d.working.edges key
  d.make (.edge (.replace key i before e))

def deleteNode (d : Draft) (key : String) : Except Fault Draft := do
  let (before, i) ← entry d.working.nodes key
  d.make (.node (.delete key i before))

def deleteEdge (d : Draft) (key : String) : Except Fault Draft := do
  let (before, i) ← entry d.working.edges key
  d.make (.edge (.delete key i before))

/-- Undoes changes, the latest first. The document is as far back as it got when one cannot be
undone. -/
def undoAll (d : Document) : List ElementChange → Document × Option Fault
  | [] => (d, none)
  | c :: rest => match c.inverse.apply d with
    | .ok d' => undoAll d' rest
    | .error f => (d, some f)

/-- Takes a draft back to a mark, by undoing every change made after it. -/
def rollback (d : Draft) (mark : Nat) : Draft × Option Fault :=
  let count := d.log.length - mark
  match undoAll d.working (d.log.take count) with
  | (working, none) => ({ d with working, log := d.log.drop count }, none)
  | (working, some f) => ({ d with working }, some f)

/-- The properties of an element with new ones written over them and some taken away. -/
def amended (properties changes : Table Json) (removed : List String) : Table Json :=
  removed.foldl Table.erase (properties.merge changes)

/-- Whether amending properties leaves each what it was, by value. -/
def isAmended (properties changes : Table Json) (removed : List String) : Bool :=
  !(properties.sameBy Json.same (amended properties changes removed))

def addNode (d : Draft) (p : Preset) (n : Node) : Except Stop Draft := do
  if d.working.nodes.has n.id then throw (.rejected (.nodeExists n.id))
  p.checkNodeRoom d.working.nodes.size n.id
  p.checkNode n
  Stop.ofFault (d.insertNode n.id n)

def updateNode (d : Draft) (p : Preset) (id : String) (changes : Table Json) (removed : List String)
    (position : Option Position) : Except Stop Draft := do
  match d.working.nodes.get? id with
  | none => throw (.rejected (.noNode id))
  | some n =>
    let moved := match position with
      | some q => !q.equal n.position
      | none => false
    if !moved && !isAmended n.properties changes removed then return d
    let updated := { n with
      properties := amended n.properties changes removed
      position := position.getD n.position }
    p.checkNode updated
    Stop.ofFault (d.replaceNode n.id updated)

/-- Removes the edges under some keys, one by one. -/
def deleteEdges (d : Draft) (keys : List String) : Except Fault Draft := keys.foldlM deleteEdge d

/-- Removes a node together with the edges at it. -/
def removeNode (d : Draft) (id : String) : Except Stop Draft := do
  if !d.working.nodes.has id then throw (.rejected (.noNode id))
  let incident := d.working.edges.entries.filter fun e => e.2.touches id
  let d ← Stop.ofFault (d.deleteEdges (Entries.keys incident))
  Stop.ofFault (d.deleteNode id)

def addEdge (d : Draft) (p : Preset) (e : Edge) : Except Stop Draft := do
  if e.inferred then throw (.rejected (.inferredEdge e.id))
  if d.working.edges.has e.id then throw (.rejected (.edgeExists e.id))
  p.checkEdgeRoom d.working.edges.size e.id
  p.checkEdge d.working.nodes d.working.edges e
  Stop.ofFault (d.insertEdge e.id e)

def updateEdge (d : Draft) (p : Preset) (id : String) (changes : Table Json)
    (removed : List String) : Except Stop Draft := do
  match d.working.edges.get? id with
  | none => throw (.rejected (.noEdge id))
  | some e =>
    if !isAmended e.properties changes removed then return d
    let updated := { e with properties := amended e.properties changes removed }
    let r ← p.relationshipOf updated
    checkProperties updated.id r.properties [] updated.properties
    Stop.ofFault (d.replaceEdge e.id updated)

def removeEdge (d : Draft) (id : String) : Except Stop Draft := do
  if !d.working.edges.has id then throw (.rejected (.noEdge id))
  Stop.ofFault (d.deleteEdge id)

/-- A draft after a single change, which is the same draft when the change came to nothing. -/
def attempt (d : Draft) (r : Except Stop Draft) : Draft × Option Stop :=
  match r with
  | .ok d' => (d', none)
  | .error s => (d, some s)

mutual
/-- Carries out a mutation up to the first change that is stopped. -/
def perform (p : Preset) (d : Draft) (m : Mutation) : Draft × Option Stop :=
  match m with
  | .addNode n => d.attempt (d.addNode p n)
  | .updateNode id changes removed position =>
    d.attempt (d.updateNode p id changes removed position)
  | .removeNode id => d.attempt (d.removeNode id)
  | .addEdge e => d.attempt (d.addEdge p e)
  | .updateEdge id changes removed => d.attempt (d.updateEdge p id changes removed)
  | .removeEdge id => d.attempt (d.removeEdge id)
  | .batch _ steps => performAll p d steps
def performAll (p : Preset) (d : Draft) : List Mutation → Draft × Option Stop
  | [] => (d, none)
  | m :: rest => match perform p d m with
    | (d', none) => performAll p d' rest
    | (d', some s) => (d', some s)
end

/-- Carries out a mutation, and takes everything back when it is refused. -/
def stage (p : Preset) (d : Draft) (m : Mutation) : Draft × Option Stop :=
  match perform p d m with
  | (d', some (.rejected r)) => ((d'.rollback d.mark).1, some (.rejected r))
  | outcome => outcome

/-- The patch of a mutation on a document, with the document after it. -/
def plan (p : Preset) (d : Document) (m : Mutation) : Except Stop (Patch × Document) :=
  match stage p (start d) m with
  | (d', none) => .ok (d'.patch, d'.result)
  | (_, some s) => .error s

end Draft

end GraphWorkbench

import GraphWorkbench.Inference.View
import GraphWorkbench.Report
/-!
The targets that a derivation finds for a node, by its kind. What keeps a target from being taken is
not looked at here.
-/
namespace GraphWorkbench

/-- Whether a value found under a property equals another one. What is no number equals nothing. -/
def Json.equal (a b : Json) : Bool :=
  match a with
  | .float x => !x.isNaN && a.same b
  | _ => a.same b

namespace GraphView

/-- The properties of a node, which a node known from links only has none of. -/
def propertiesOf (v : GraphView) (node : String) : Except Fault (Table Json) :=
  match v.nodes.get? node with
  | some (some properties) => .ok properties
  | some none => .error (.noKey "properties")
  | none => .error (.noKey node)

/-- The ends of the paths that follow the steps, none of them being the start. -/
def pathEnds (v : GraphView) (steps : List PathStep) (node : String) : List String :=
  let follow := fun (front : List String) (s : PathStep) => (front.flatMap (v.step s)).eraseDups
  (steps.foldl follow [node]).filter (· != node)

/-- What is reached by repeating the first step. -/
def reachFirst (v : GraphView) (steps : List PathStep) (node : String) :
    Except Fault (List String) :=
  match steps with
  | [] => .error .noPlace
  | s :: _ =>
    if v.nodes.has node then .ok (v.reach s node)
    else match s.direction with
      | .either => .error (.noKey node)
      | _ => .error .notInGraph

/-- The other nodes that have the same value under a property. -/
def matching (v : GraphView) (property : Option String) (node : String) :
    Except Fault (List String) := do
  let own ← v.propertiesOf node
  match property.bind own.get? with
  | none | some .null | some (.str "") => return []
  | some value =>
    let others := v.nodes.entries.filter fun e => e.1 != node
    let hits ← others.filterM fun e => match e.2 with
      | none => throw .noMember
      | some properties => return match property.bind properties.get? with
        | some w => w.equal value
        | none => false
    return Entries.keys hits

def targets (v : GraphView) (d : Derivation) (node : String) : Except Fault (List String) :=
  match d.kind with
  | .neighbors => .ok (d.via.flatMap fun s => v.step s node).eraseDups
  | .path => .ok (v.pathEnds d.via node)
  | .transitive => v.reachFirst d.via node
  | .propertyMatch => v.matching d.matchProperty node
  | .byType => .ok (v.nodes.keys.filter (· != node))

end GraphView

end GraphWorkbench

import GraphWorkbench.Document.Format
import GraphWorkbench.Report
/-!
Patches: lists of changes to the elements of a document that can be undone exactly. A change knows
the element before and after it and the place of its key, so that undoing it brings back the order
as well as the content.
-/
namespace GraphWorkbench

/-- A change of one entry of a table. -/
inductive Change (α : Type) where
  | insert (key : String) (index : Int) (value : α)
  | delete (key : String) (index : Int) (value : α)
  | replace (key : String) (index : Int) (before after : α)
deriving DecidableEq

namespace Change

variable {α : Type}

def key : Change α → String
  | .insert key _ _ => key
  | .delete key _ _ => key
  | .replace key _ _ _ => key

def index : Change α → Int
  | .insert _ index _ => index
  | .delete _ index _ => index
  | .replace _ index _ _ => index

def before? : Change α → Option α
  | .insert .. => none
  | .delete _ _ value => some value
  | .replace _ _ before _ => some before

def after? : Change α → Option α
  | .insert _ _ value => some value
  | .delete .. => none
  | .replace _ _ _ after => some after

def kind : Change α → String
  | .insert .. => "insert"
  | .delete .. => "delete"
  | .replace .. => "replace"

def inverse : Change α → Change α
  | .insert key index value => .delete key index value
  | .delete key index value => .insert key index value
  | .replace key index before after => .replace key index after before

/-- Carries out a change. Only a deletion asks for its key to be there. -/
def apply (t : Table α) : Change α → Except Fault (Table α)
  | .insert key index value => .ok (t.insertAt index key value)
  | .delete key _ _ => if t.has key then .ok (t.erase key) else .error (.noKey key)
  | .replace key _ _ after => .ok (t.put key after)

@[simp] theorem inverse_inverse (c : Change α) : c.inverse.inverse = c := by cases c <;> rfl

end Change

/-- A change of one element of a document. -/
inductive ElementChange where
  | node (c : Change Node)
  | edge (c : Change Edge)
deriving DecidableEq

namespace ElementChange

def target : ElementChange → String
  | .node _ => "node"
  | .edge _ => "edge"

def key : ElementChange → String
  | .node c => c.key
  | .edge c => c.key

def kind : ElementChange → String
  | .node c => c.kind
  | .edge c => c.kind

def inverse : ElementChange → ElementChange
  | .node c => .node c.inverse
  | .edge c => .edge c.inverse

def apply (d : Document) : ElementChange → Except Fault Document
  | .node c => (c.apply d.nodes).map fun nodes => { d with nodes }
  | .edge c => (c.apply d.edges).map fun edges => { d with edges }

def toJson (c : ElementChange) : Json :=
  let side := fun {α : Type} (write : α → Json) (element : Option α) => match element with
    | some e => write e
    | none => .null
  let (index, before, after) := match c with
    | .node c => (c.index, side Node.toJson c.before?, side Node.toJson c.after?)
    | .edge c => (c.index, side Edge.toJson c.before?, side Edge.toJson c.after?)
  .obj [("target", .str c.target), ("key", .str c.key), ("kind", .str c.kind), ("index", .int index),
    ("before", before), ("after", after)]

@[simp] theorem inverse_inverse (c : ElementChange) : c.inverse.inverse = c := by
  cases c <;> simp [inverse]

end ElementChange

/-- Changes in the order in which they were made. -/
abbrev Patch := List ElementChange

namespace Patch

/-- The changes that undo a patch, the last one first. -/
def inverse (patch : Patch) : Patch := patch.reverse.map ElementChange.inverse

/-- Carries out the changes in order. -/
def apply (d : Document) (patch : Patch) : Except Fault Document :=
  patch.foldlM ElementChange.apply d

@[simp] theorem inverse_inverse (patch : Patch) : patch.inverse.inverse = patch := by
  simp [inverse, Function.comp_def]

@[simp] theorem apply_nil (d : Document) : apply d [] = .ok d := rfl

end Patch

end GraphWorkbench

import GraphWorkbench.Document.Basic
/-!
What changed between two documents, element by element: the keys that came, the keys that went, and
the common keys whose elements are not the same.
-/
namespace GraphWorkbench

/-- The keys on which two tables differ. -/
structure TableDifference where
  added : List String
  removed : List String
  modified : List String
deriving DecidableEq

/-- Added and modified keys come in the order of the new table, removed ones in that of the old. -/
def Table.difference {α : Type} (same : α → α → Bool) (old new : Table α) : TableDifference :=
  { added := new.keys.filter fun k => !old.has k
    removed := old.keys.filter fun k => !new.has k
    modified := (new.entries.filter fun e => match old.get? e.1 with
      | some a => !same e.2 a
      | none => false).map Prod.fst }

def TableDifference.isEmpty (d : TableDifference) : Bool :=
  d.added.isEmpty && d.removed.isEmpty && d.modified.isEmpty

def TableDifference.toJson (d : TableDifference) : Json :=
  .obj [("added", .ofStrings d.added), ("removed", .ofStrings d.removed),
    ("modified", .ofStrings d.modified)]

/-- What changed between two documents. -/
structure Difference where
  nodes : TableDifference
  edges : TableDifference
deriving DecidableEq

def Document.difference (old new : Document) : Difference :=
  { nodes := old.nodes.difference Node.same new.nodes
    edges := old.edges.difference Edge.same new.edges }

def Difference.unchanged (d : Difference) : Bool := d.nodes.isEmpty && d.edges.isEmpty

def Difference.toJson (d : Difference) : Json :=
  .obj [("nodes", d.nodes.toJson), ("edges", d.edges.toJson), ("unchanged", .bool d.unchanged)]

end GraphWorkbench

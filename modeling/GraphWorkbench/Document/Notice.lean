import GraphWorkbench.Document.Basic
import GraphWorkbench.Document.Rejection
import GraphWorkbench.Events.Log
/-!
What a store tells of its document. The notice of a change holds the document itself; the event that
it is written as says only how large that document is.
-/
namespace GraphWorkbench

inductive Notice where
  /-- A document was committed under a label, as the state of a number. -/
  | changed (document : Document) (label : String) (revision : Nat)
  /-- A change was rejected. -/
  | refused (r : Rejection)
  /-- Something else happened, which is told as it is. -/
  | told (e : Event)

namespace Notice

/-- How large a document is. -/
def measure (d : Document) : Json :=
  .obj [("nodes", .int d.nodes.size), ("edges", .int d.edges.size)]

def toEvent : Notice → Event
  | .changed document label revision => ⟨"documentChanged",
      .obj [("snapshot", measure document), ("label", .str label), ("revision", .int revision)]⟩
  | .refused r => ⟨"validationFailed", .obj [("errors", .arr [r.violation.toJson])]⟩
  | .told e => e

end Notice

end GraphWorkbench

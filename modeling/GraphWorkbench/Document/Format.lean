import GraphWorkbench.Document.Basic
import GraphWorkbench.Schema.Decode
/-!
The exchange form of documents. Elements are written with every field; a value of any kind is
written as far as it can be. Some fields have a plain name beside that of the exchange format, and an
element can be written and read under names of either kind; the members of free-form values keep
theirs.
-/
namespace GraphWorkbench

open Schema

/-- The names under which fields are written. -/
inductive Naming where
  | exchange
  | plain
deriving DecidableEq, Inhabited

/-- The name of a field that has two. -/
def Naming.pick (naming : Naming) (name plain : String) : String :=
  match naming with
  | .exchange => name
  | .plain => plain

def Position.decode : Json → Decoded Position :=
  record "Position" fun r =>
    (Decoded.build Position.mk)
      |>.ap (optional r "x" "x" 0 number)
      |>.ap (optional r "y" "y" 0 number)

def Position.toJson (p : Position) : Json := .obj [("x", .float p.x), ("y", .float p.y)]

def Node.decode : Json → Decoded Node :=
  record "GraphNode" fun r =>
    (Decoded.build Node.mk)
      |>.ap (required r "id" "id" string)
      |>.ap (required r "typeId" "type_id" string)
      |>.ap (optional r "properties" "properties" .empty anyTable)
      |>.ap (optional r "position" "position" {} Position.decode)

def Node.write (naming : Naming) (n : Node) : Json :=
  .obj [("id", .str n.id), (naming.pick "typeId" "type_id", .str n.typeId),
    ("properties", (Json.ofTable n.properties).portable), ("position", n.position.toJson)]

def Node.toJson (n : Node) : Json := n.write .exchange

def Edge.decode : Json → Decoded Edge :=
  record "GraphEdge" fun r =>
    (Decoded.build Edge.mk)
      |>.ap (required r "id" "id" string)
      |>.ap (required r "typeId" "type_id" string)
      |>.ap (required r "source" "source" string)
      |>.ap (required r "target" "target" string)
      |>.ap (optional r "properties" "properties" .empty anyTable)
      |>.ap (optional r "inferred" "inferred" false boolean)

def Edge.write (naming : Naming) (e : Edge) : Json :=
  .obj [("id", .str e.id), (naming.pick "typeId" "type_id", .str e.typeId),
    ("source", .str e.source), ("target", .str e.target),
    ("properties", (Json.ofTable e.properties).portable), ("inferred", .bool e.inferred)]

def Edge.toJson (e : Edge) : Json := e.write .exchange

def Metadata.decode : Json → Decoded Metadata :=
  record "DocumentMetadata" fun r =>
    (Decoded.build Metadata.mk)
      |>.ap (required r "presetId" "preset_id" string)
      |>.ap (required r "presetVersion" "preset_version" string)
      |>.ap (optional r "title" "title" untitled string)

def Metadata.toJson (m : Metadata) : Json :=
  .obj [("presetId", .str m.presetId), ("presetVersion", .str m.presetVersion),
    ("title", .str m.title)]

/-- Reads a document with its keys, unchecked against any preset. -/
def Document.decode : Json → Decoded Document :=
  record "GraphSnapshot" fun r =>
    (Decoded.build Document.mk)
      |>.ap (required r "metadata" "metadata" Metadata.decode)
      |>.ap (optional r "nodes" "nodes" .empty (tableOf Node.decode))
      |>.ap (optional r "edges" "edges" .empty (tableOf Edge.decode))

/-- What is written of a document. Inferred edges are left out, and the keys are not written. -/
def Document.exportFields (d : Document) : Fields :=
  [("metadata", d.metadata.toJson), ("nodes", .arr (d.nodes.values.map Node.toJson)),
    ("edges", .arr ((d.edges.values.filter fun e => !e.inferred).map Edge.toJson))]

/-- The exchange form of a document. -/
def Document.export (d : Document) : Json := .obj d.exportFields

end GraphWorkbench

import GraphWorkbench.Document.Format
/-!
Mutations: the changes that can be asked of a document, alone or in batches nested to any depth,
with their exchange form. The form is told by a tag, which also stands in the path of an issue.
-/
namespace GraphWorkbench

inductive Mutation where
  | addNode (node : Node)
  | updateNode (id : String) (properties : Table Json) (removed : List String)
      (position : Option Position)
  | removeNode (id : String)
  | addEdge (edge : Edge)
  | updateEdge (id : String) (properties : Table Json) (removed : List String)
  | removeEdge (id : String)
  | batch (label : Option String) (steps : List Mutation)
deriving Inhabited

namespace Mutation

open Schema

def tags : List String :=
  ["add-node", "update-node", "remove-node", "add-edge", "update-edge", "remove-edge", "batch"]

def tagField : String := "op"

def tag : Mutation → String
  | .addNode _ => "add-node"
  | .updateNode .. => "update-node"
  | .removeNode _ => "remove-node"
  | .addEdge _ => "add-edge"
  | .updateEdge .. => "update-edge"
  | .removeEdge _ => "remove-edge"
  | .batch .. => "batch"

/-- Reads the fields of a mutation that is no batch; none when the tag is of no such form. -/
def decodeSingle? (tag : String) (r : Fields) : Option (Decoded Mutation) :=
  match tag with
  | "add-node" => some <|
    (Decoded.build addNode)
      |>.ap (required r "node" "node" Node.decode)
  | "update-node" => some <|
    (Decoded.build updateNode)
      |>.ap (required r "nodeId" "node_id" string)
      |>.ap (optional r "properties" "properties" .empty anyTable)
      |>.ap (optional r "removeProperties" "remove_properties" [] (listOf string))
      |>.ap (optional r "position" "position" none (nullable Position.decode))
  | "remove-node" => some <|
    (Decoded.build removeNode)
      |>.ap (required r "nodeId" "node_id" string)
  | "add-edge" => some <|
    (Decoded.build addEdge)
      |>.ap (required r "edge" "edge" Edge.decode)
  | "update-edge" => some <|
    (Decoded.build updateEdge)
      |>.ap (required r "edgeId" "edge_id" string)
      |>.ap (optional r "properties" "properties" .empty anyTable)
      |>.ap (optional r "removeProperties" "remove_properties" [] (listOf string))
  | "remove-edge" => some <|
    (Decoded.build removeEdge)
      |>.ap (required r "edgeId" "edge_id" string)
  | _ => none

theorem sizeOf_get?_lt {key : String} {fields : List (String × Json)} {v : Json}
    (h : Entries.get? key fields = some v) : sizeOf v < sizeOf fields := by
  induction fields with
  | nil => simp [Entries.get?] at h
  | cons e rest ih =>
    obtain ⟨k, w⟩ := e
    simp only [Entries.get?] at h
    split at h
    · injection h with h
      subst h
      simp only [List.cons.sizeOf_spec, Prod.mk.sizeOf_spec]
      omega
    · have := ih h
      simp only [List.cons.sizeOf_spec]
      omega

mutual
def decode (v : Json) : Decoded Mutation :=
  match v with
  | .obj r =>
    match Entries.get? tagField r with
    | none => fault (.noTag tagField)
    | some (.str "batch") =>
      have mutations : Decoded (List Mutation) :=
        match h : Entries.get? "mutations" r with
        | none => .ok []
        | some (.arr items) =>
          have : sizeOf items < sizeOf r := by
            have := sizeOf_get?_lt h
            simp only [Json.arr.sizeOf_spec] at this
            omega
          Decoded.under (.key "mutations") (decodeFrom 0 items)
        | some _ => Decoded.under (.key "mutations") (fault .notList)
      Decoded.under (.key "batch") <|
        (Decoded.build batch)
          |>.ap (optional r "label" "label" none (nullable string))
          |>.ap mutations
    | some (.str tag) => match decodeSingle? tag r with
      | some m => Decoded.under (.key tag) m
      | none => fault (.unknownTag tagField tag tags)
    | some tag => fault (.unknownTag tagField tag.text tags)
  | _ => fault .notObject
termination_by sizeOf v

/-- The steps of a batch, the first of them standing at place `i`. -/
def decodeFrom (i : Nat) (items : List Json) : Decoded (List Mutation) :=
  match items with
  | [] => .ok []
  | v :: rest =>
    Decoded.ap (Decoded.ap (.ok List.cons) (Decoded.under (.index i) (decode v)))
      (decodeFrom (i + 1) rest)
termination_by sizeOf items
end

mutual
def write (naming : Naming) : Mutation → Json
  | .addNode node => .obj [(tagField, .str "add-node"), ("node", node.write naming)]
  | .updateNode id properties removed position =>
    .obj [(tagField, .str "update-node"), (naming.pick "nodeId" "node_id", .str id),
      ("properties", (Json.ofTable properties).portable),
      (naming.pick "removeProperties" "remove_properties", .ofStrings removed),
      ("position", (position.map Position.toJson).getD .null)]
  | .removeNode id =>
    .obj [(tagField, .str "remove-node"), (naming.pick "nodeId" "node_id", .str id)]
  | .addEdge edge => .obj [(tagField, .str "add-edge"), ("edge", edge.write naming)]
  | .updateEdge id properties removed =>
    .obj [(tagField, .str "update-edge"), (naming.pick "edgeId" "edge_id", .str id),
      ("properties", (Json.ofTable properties).portable),
      (naming.pick "removeProperties" "remove_properties", .ofStrings removed)]
  | .removeEdge id =>
    .obj [(tagField, .str "remove-edge"), (naming.pick "edgeId" "edge_id", .str id)]
  | .batch label steps =>
    .obj [(tagField, .str "batch"), ("label", .ofString? label),
      ("mutations", .arr (writeAll naming steps))]
def writeAll (naming : Naming) : List Mutation → List Json
  | [] => []
  | m :: rest => write naming m :: writeAll naming rest
end

def toJson (m : Mutation) : Json := m.write .exchange

/-- A short label. A batch goes by its own label, unless that is empty. -/
def label : Mutation → String
  | .addNode node => s!"Add node {node.id}"
  | .updateNode id .. => s!"Update node {id}"
  | .removeNode id => s!"Remove node {id}"
  | .addEdge edge => s!"Add edge {edge.id}"
  | .updateEdge id .. => s!"Update edge {id}"
  | .removeEdge id => s!"Remove edge {id}"
  | .batch label steps =>
    let own := label.getD ""
    if own.isEmpty then s!"Batch of {steps.length} change(s)" else own

end Mutation

end GraphWorkbench

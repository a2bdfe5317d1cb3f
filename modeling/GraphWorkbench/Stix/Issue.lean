import GraphWorkbench.Document.Rejection
/-!
What an import reports: issues, which are about one object of the bundle each, and warnings, which
let the import go on.
-/
namespace GraphWorkbench.Stix

/-- Why an object cannot be imported. -/
inductive IssueCause where
  | notObject
  | noType
  | otherPrefix (id type : String)
  | invalid (text : String)
  | repeated (id : String)
  | unmappedType (type preset : String)
  | unknownReference (ref : String)
  | unmappedRelationship (relationship preset : String)
  | noSightingRelationship (relationship preset : String)
  | rejected (r : Rejection)
deriving DecidableEq

def IssueCause.code : IssueCause → String
  | .notObject | .invalid _ => "invalid-object"
  | .noType => "missing-type"
  | .otherPrefix .. => "id-type-mismatch"
  | .repeated _ => "duplicate-id"
  | .unmappedType .. => "unmapped-type"
  | .unknownReference _ => "dangling-reference"
  | .unmappedRelationship .. | .noSightingRelationship .. => "unmapped-relationship"
  | .rejected r => r.code

def IssueCause.message : IssueCause → String
  | .notObject => "Bundle entry is not a JSON object"
  | .noType => "Object has no 'type'"
  | .otherPrefix id type => s!"Id '{id}' does not match type '{type}'"
  | .invalid text => text
  | .repeated id => s!"Duplicate object id '{id}'"
  | .unmappedType type preset => s!"STIX type '{type}' has no node type in preset '{preset}'"
  | .unknownReference ref => s!"References unknown object '{ref}'"
  | .unmappedRelationship relationship preset =>
    s!"Relationship type '{relationship}' has no counterpart in preset '{preset}'"
  | .noSightingRelationship relationship preset =>
    s!"Preset '{preset}' has no '{relationship}' relationship for sightings"
  | .rejected r => r.message

/-- An object that is not imported, by its place in the bundle. -/
structure Issue where
  index : Nat
  id : Option String := none
  type : Option String := none
  cause : IssueCause
deriving DecidableEq

def Issue.toJson (i : Issue) : Json :=
  .obj [("index", .int i.index), ("message", .str i.cause.message), ("code", .str i.cause.code),
    ("object_id", .ofString? i.id), ("object_type", .ofString? i.type)]

/-- What is worth telling about an object without being wrong. -/
inductive WarningCause where
  | nodeExists (id : String)
  | edgeExists (id : String)
  | filteredReference (ref : String)
  | emptySighting
deriving DecidableEq

def WarningCause.code : WarningCause → String
  | .nodeExists _ => "existing-node"
  | .edgeExists _ => "existing-edge"
  | .filteredReference _ => "filtered-reference"
  | .emptySighting => "empty-sighting"

def WarningCause.message : WarningCause → String
  | .nodeExists id => s!"Node '{id}' already exists; kept as is"
  | .edgeExists id => s!"Edge '{id}' already exists; kept as is"
  | .filteredReference ref => s!"References filtered object '{ref}'; skipped"
  | .emptySighting => "Sighting has no where_sighted_refs; nothing to connect"

structure Warning where
  index : Nat
  id : String
  cause : WarningCause
deriving DecidableEq

def Warning.toJson (w : Warning) : Json :=
  .obj [("index", .int w.index), ("message", .str w.cause.message), ("code", .str w.cause.code),
    ("object_id", .str w.id)]

/-- An object of a type that is not known, which is passed over. -/
structure UnknownType where
  index : Nat
  type : String
  id : Option String := none
deriving DecidableEq

def UnknownType.toJson (u : UnknownType) : Json :=
  .obj [("index", .int u.index), ("object_type", .str u.type), ("object_id", .ofString? u.id),
    ("message", .str s!"No validator for STIX type '{u.type}'; object skipped"),
    ("code", .str "unknown-type")]

end GraphWorkbench.Stix

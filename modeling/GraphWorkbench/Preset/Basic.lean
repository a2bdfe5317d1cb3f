import GraphWorkbench.Json.Basic
/-!
Presets: the node types, relationships, looks, limits and derivations that a graph document is
written against.
-/
namespace GraphWorkbench

/-- The kinds of values that a property can hold. -/
inductive PropertyKind where
  | text
  | number
  | boolean
  | date
  | url
  | choice
  | choices
deriving DecidableEq, Inhabited

/-- A property that elements of a type can have. -/
structure Property where
  id : String
  name : String
  kind : PropertyKind := .text
  required : Bool := false
  options : Option (List String) := none
  default : Json := .null
deriving DecidableEq, Inhabited

/-- The checks that a rule can put on a property. -/
inductive Check where
  | pattern
  | min
  | max
  | minLength
  | maxLength
  | oneOf
deriving DecidableEq, Inhabited

/-- A check on a property of a node type, with its limit. -/
structure Rule where
  property : String
  check : Check
  limit : Json
  message : Option String := none
deriving DecidableEq, Inhabited

inductive Shape where
  | rectangle
  | rounded
  | circle
  | diamond
  | hexagon
deriving DecidableEq, Inhabited

structure NodeStyle where
  color : String
  borderColor : Option String := none
  backgroundColor : Option String := none
  icon : Option String := none
  shape : Option Shape := none
deriving DecidableEq, Inhabited

/-- A type of nodes. The two lists, when there, name the only relationships that may come in and go
out. -/
structure NodeType where
  id : String
  name : String
  category : String := ""
  description : String := ""
  ontologyClass : Option String := none
  properties : List Property := []
  rules : List Rule := []
  incoming : Option (List String) := none
  outgoing : Option (List String) := none
  style : NodeStyle
deriving DecidableEq, Inhabited

/-- How many edges of a relationship may meet. -/
inductive Multiplicity where
  | oneToOne
  | oneToMany
  | manyToMany
deriving DecidableEq, Inhabited

inductive Directionality where
  | directed
  | undirected
  | bidirectional
deriving DecidableEq, Inhabited

inductive StrokeStyle where
  | solid
  | dashed
  | dotted
deriving DecidableEq, Inhabited

/-- The look of an edge. -/
structure EdgeStyle where
  strokeColor : String := "#64748b"
  strokeWidth : Binary64 := 2
  strokeStyle : StrokeStyle := .solid
  animated : Bool := false
deriving DecidableEq, Inhabited

/-- A relationship that edges can be of, between nodes of the listed types. -/
structure Relationship where
  id : String
  name : String
  description : String := ""
  sourceTypes : List String
  targetTypes : List String
  multiplicity : Multiplicity := .manyToMany
  directionality : Directionality := .directed
  style : EdgeStyle := {}
  properties : List Property := []
deriving DecidableEq, Inhabited

inductive Theme where
  | light
  | dark
deriving DecidableEq, Inhabited

structure Styling where
  theme : Theme := .light
  primaryColor : String := "#3b82f6"
  backgroundColor : String := "#ffffff"
  gridColor : String := "#e5e7eb"
  fontFamily : String := "Inter, sans-serif"
deriving DecidableEq, Inhabited

/-- The limits and switches of documents of a preset. -/
structure Behavior where
  snapToGrid : Bool := false
  gridSize : Nat := 20
  historyLimit : Nat := 100
  maxNodes : Nat := 1000
  maxEdges : Nat := 2000
  enableInference : Bool := false
  inferenceMaxPasses : Option Nat := none
deriving DecidableEq, Inhabited

/-- The way in which edges are followed. -/
inductive StepDirection where
  | outward
  | inward
  | either
deriving DecidableEq, Inhabited

structure PathStep where
  relationship : String
  direction : StepDirection := .outward
deriving DecidableEq, Inhabited

/-- The ways in which the targets of a derivation are found. -/
inductive DerivationKind where
  | neighbors
  | path
  | transitive
  | propertyMatch
  | byType
deriving DecidableEq, Inhabited

/-- How much a derived edge matters, the gravest first. -/
inductive Severity where
  | critical
  | high
  | medium
  | low
  | info
deriving DecidableEq, Inhabited

/-- What is derived for a node: edges of a relationship to targets, and attributes. -/
structure Derivation where
  kind : DerivationKind
  derived : Option String := none
  via : List PathStep := []
  targetTypes : Option (List String) := none
  matchProperty : Option String := none
  attributes : Table Json := .empty
  severity : Severity := .info
  confidence : Nat := 100
deriving DecidableEq, Inhabited

/-- A derivation for the nodes of a type, or of all types with an ontology class. -/
structure Mapping where
  id : String
  sourceType : Option String := none
  ontologyClass : Option String := none
  priority : Int := 0
  description : String := ""
  rule : Derivation
deriving DecidableEq, Inhabited

structure Preset where
  id : String
  name : String
  version : String
  description : String := ""
  author : Option String := none
  nodeTypes : List NodeType
  relationships : List Relationship := []
  styling : Styling := {}
  behavior : Behavior := {}
  mappings : List Mapping := []
deriving DecidableEq, Inhabited

/-- The type name that stands for every node type. -/
def wildcard : String := "*"

/-- The version of the preset format. -/
def currentVersion : String := "2.0.0"

def NodeType.property? (t : NodeType) (id : String) : Option Property :=
  t.properties.find? (·.id == id)

/-- Whether a list of type names covers a type. -/
def declares (types : List String) (type : String) : Bool :=
  types.contains wildcard || types.contains type

/-- Whether the types of two ends are the declared ones, in either order unless the relationship is
directed. -/
def Relationship.allows (r : Relationship) (source target : String) : Bool :=
  let forward := declares r.sourceTypes source && declares r.targetTypes target
  if forward || r.directionality == .directed then forward
  else declares r.sourceTypes target && declares r.targetTypes source

def Preset.nodeType? (p : Preset) (id : String) : Option NodeType := p.nodeTypes.find? (·.id == id)

def Preset.relationship? (p : Preset) (id : String) : Option Relationship :=
  p.relationships.find? (·.id == id)

def Property.portable (p : Property) : Property := { p with default := p.default.portable }

def NodeType.portable (t : NodeType) : NodeType :=
  { t with
    properties := t.properties.map Property.portable
    rules := t.rules.map fun r => { r with limit := r.limit.portable } }

def Relationship.portable (r : Relationship) : Relationship :=
  { r with properties := r.properties.map Property.portable }

def Mapping.portable (m : Mapping) : Mapping :=
  { m with rule := { m.rule with attributes := m.rule.attributes.mapValues Json.portable } }

/-- A preset as it can be written out: the values of any kind in it hold finite numbers only. -/
def Preset.portable (p : Preset) : Preset :=
  { p with
    nodeTypes := p.nodeTypes.map NodeType.portable
    relationships := p.relationships.map Relationship.portable
    mappings := p.mappings.map Mapping.portable }

end GraphWorkbench

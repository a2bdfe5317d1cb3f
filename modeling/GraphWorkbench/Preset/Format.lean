import GraphWorkbench.Preset.Words
import GraphWorkbench.Schema.Decode
import GraphWorkbench.Text.Form
/-!
The exchange form of presets. `decode` reads a preset and reports every field that has the wrong
shape; `toJson` writes all fields out. What ties fields together is not looked at here.
-/
namespace GraphWorkbench

open Schema

def natAbove (bound : Int) (v : Json) : Decoded Nat :=
  (Decoded.build Int.toNat).ap (integerAbove bound v)

def natBetween (least most : Int) (v : Json) : Decoded Nat :=
  (Decoded.build Int.toNat).ap (integerBetween least most v)

def natFrom (least : Int) (v : Json) : Decoded Nat :=
  (Decoded.build Int.toNat).ap (integerFrom least v)

def idText : Json → Decoded String := formed Text.idForm Text.isIdForm

def colorText : Json → Decoded String := formed Text.colorForm Text.isColorForm

def Property.decode : Json → Decoded Property :=
  record "PropertyDefinition" fun r =>
    (Decoded.build Property.mk)
      |>.ap (Schema.required r "id" "id" nonEmpty)
      |>.ap (Schema.required r "name" "name" nonEmpty)
      |>.ap (optional r "type" "type" .text (oneOf PropertyKind.words))
      |>.ap (optional r "required" "required" false boolean)
      |>.ap (optional r "options" "options" none (nullable (listOf string)))
      |>.ap (optional r "default" "default" .null anything)

def Property.toJson (p : Property) : Json :=
  .obj [("id", .str p.id), ("name", .str p.name), ("type", .str p.kind.word),
    ("required", .bool p.required),
    ("options", match p.options with | some o => .ofStrings o | none => .null),
    ("default", p.default)]

def Rule.decode : Json → Decoded Rule :=
  record "ValidationRule" fun r =>
    (Decoded.build Rule.mk)
      |>.ap (required r "property" "property" nonEmpty)
      |>.ap (required r "rule" "rule" (oneOf Check.words))
      |>.ap (required r "value" "value" anything)
      |>.ap (optional r "message" "message" none (nullable string))

def Rule.toJson (r : Rule) : Json :=
  .obj [("property", .str r.property), ("rule", .str r.check.word), ("value", r.limit),
    ("message", .ofString? r.message)]

def NodeStyle.decode : Json → Decoded NodeStyle :=
  record "NodeStyle" fun r =>
    (Decoded.build NodeStyle.mk)
      |>.ap (required r "color" "color" colorText)
      |>.ap (optional r "borderColor" "border_color" none (nullable colorText))
      |>.ap (optional r "backgroundColor" "background_color" none (nullable colorText))
      |>.ap (optional r "icon" "icon" none (nullable string))
      |>.ap (optional r "shape" "shape" none (nullable (oneOf Shape.words)))

def NodeStyle.toJson (s : NodeStyle) : Json :=
  .obj [("color", .str s.color), ("borderColor", .ofString? s.borderColor),
    ("backgroundColor", .ofString? s.backgroundColor), ("icon", .ofString? s.icon),
    ("shape", .ofString? (s.shape.map Shape.word))]

/-- A list of texts or null. -/
def stringsOrNull : Option (List String) → Json
  | some ss => .ofStrings ss
  | none => .null

def NodeType.decode : Json → Decoded NodeType :=
  record "NodeTypeDefinition" fun r =>
    (Decoded.build NodeType.mk)
      |>.ap (required r "id" "id" idText)
      |>.ap (required r "name" "name" nonEmpty)
      |>.ap (optional r "category" "category" "" string)
      |>.ap (optional r "description" "description" "" string)
      |>.ap (optional r "ontologyClass" "ontology_class" none (nullable string))
      |>.ap (optional r "properties" "properties" [] (listOf Property.decode))
      |>.ap (optional r "validationRules" "validation_rules" [] (listOf Rule.decode))
      |>.ap (optional r "incomingRelationships" "incoming_relationships" none
        (nullable (listOf string)))
      |>.ap (optional r "outgoingRelationships" "outgoing_relationships" none
        (nullable (listOf string)))
      |>.ap (required r "style" "style" NodeStyle.decode)

def NodeType.toJson (t : NodeType) : Json :=
  .obj [("id", .str t.id), ("name", .str t.name), ("category", .str t.category),
    ("description", .str t.description), ("ontologyClass", .ofString? t.ontologyClass),
    ("properties", .arr (t.properties.map Property.toJson)),
    ("validationRules", .arr (t.rules.map Rule.toJson)),
    ("incomingRelationships", stringsOrNull t.incoming),
    ("outgoingRelationships", stringsOrNull t.outgoing), ("style", t.style.toJson)]

def EdgeStyle.decode : Json → Decoded EdgeStyle :=
  record "EdgeStyle" fun r =>
    (Decoded.build EdgeStyle.mk)
      |>.ap (optional r "strokeColor" "stroke_color" "#64748b" colorText)
      |>.ap (optional r "strokeWidth" "stroke_width" 2 (numberAbove 0))
      |>.ap (optional r "strokeStyle" "stroke_style" .solid (oneOf StrokeStyle.words))
      |>.ap (optional r "animated" "animated" false boolean)

def EdgeStyle.toJson (s : EdgeStyle) : Json :=
  .obj [("strokeColor", .str s.strokeColor),
    ("strokeWidth", .float s.strokeWidth),
    ("strokeStyle", .str s.strokeStyle.word), ("animated", .bool s.animated)]

def Relationship.decode : Json → Decoded Relationship :=
  record "RelationshipDefinition" fun r =>
    (Decoded.build Relationship.mk)
      |>.ap (required r "id" "id" idText)
      |>.ap (required r "name" "name" nonEmpty)
      |>.ap (optional r "description" "description" "" string)
      |>.ap (required r "sourceTypes" "source_types" (someOf string))
      |>.ap (required r "targetTypes" "target_types" (someOf string))
      |>.ap (optional r "multiplicity" "multiplicity" .manyToMany (oneOf Multiplicity.words))
      |>.ap (optional r "directionality" "directionality" .directed (oneOf Directionality.words))
      |>.ap (optional r "style" "style" {} EdgeStyle.decode)
      |>.ap (optional r "properties" "properties" [] (listOf Property.decode))

def Relationship.toJson (r : Relationship) : Json :=
  .obj [("id", .str r.id), ("name", .str r.name), ("description", .str r.description),
    ("sourceTypes", .ofStrings r.sourceTypes), ("targetTypes", .ofStrings r.targetTypes),
    ("multiplicity", .str r.multiplicity.word), ("directionality", .str r.directionality.word),
    ("style", r.style.toJson), ("properties", .arr (r.properties.map Property.toJson))]

def Styling.decode : Json → Decoded Styling :=
  record "StylingRules" fun r =>
    (Decoded.build Styling.mk)
      |>.ap (optional r "theme" "theme" .light (oneOf Theme.words))
      |>.ap (optional r "primaryColor" "primary_color" "#3b82f6" colorText)
      |>.ap (optional r "backgroundColor" "background_color" "#ffffff" colorText)
      |>.ap (optional r "gridColor" "grid_color" "#e5e7eb" colorText)
      |>.ap (optional r "fontFamily" "font_family" "Inter, sans-serif" string)

def Styling.toJson (s : Styling) : Json :=
  .obj [("theme", .str s.theme.word), ("primaryColor", .str s.primaryColor),
    ("backgroundColor", .str s.backgroundColor), ("gridColor", .str s.gridColor),
    ("fontFamily", .str s.fontFamily)]

def Behavior.decode : Json → Decoded Behavior :=
  record "BehaviorConfig" fun r =>
    (Decoded.build Behavior.mk)
      |>.ap (optional r "snapToGrid" "snap_to_grid" false boolean)
      |>.ap (optional r "gridSize" "grid_size" 20 (natAbove 0))
      |>.ap (optional r "historyLimit" "history_limit" 100 (natBetween 1 1000))
      |>.ap (optional r "maxNodes" "max_nodes" 1000 (natAbove 0))
      |>.ap (optional r "maxEdges" "max_edges" 2000 (natAbove 0))
      |>.ap (optional r "enableInference" "enable_inference" false boolean)
      |>.ap (optional r "inferenceMaxPasses" "inference_max_passes" none (nullable (natFrom 1)))

def Behavior.toJson (b : Behavior) : Json :=
  .obj [("snapToGrid", .bool b.snapToGrid), ("gridSize", .int b.gridSize),
    ("historyLimit", .int b.historyLimit), ("maxNodes", .int b.maxNodes),
    ("maxEdges", .int b.maxEdges), ("enableInference", .bool b.enableInference),
    ("inferenceMaxPasses", match b.inferenceMaxPasses with | some n => .int n | none => .null)]

def PathStep.decode : Json → Decoded PathStep :=
  record "PathStep" fun r =>
    (Decoded.build PathStep.mk)
      |>.ap (required r "relationship" "relationship" nonEmpty)
      |>.ap (optional r "direction" "direction" .outward (oneOf StepDirection.words))

def PathStep.toJson (s : PathStep) : Json :=
  .obj [("relationship", .str s.relationship), ("direction", .str s.direction.word)]

def Derivation.decode : Json → Decoded Derivation :=
  record "InferenceRule" fun r =>
    (Decoded.build Derivation.mk)
      |>.ap (required r "kind" "kind" (oneOf DerivationKind.words))
      |>.ap (optional r "derivedRelationship" "derived_relationship" none (nullable string))
      |>.ap (optional r "via" "via" [] (listOf PathStep.decode))
      |>.ap (optional r "targetTypes" "target_types" none (nullable (listOf string)))
      |>.ap (optional r "matchProperty" "match_property" none (nullable string))
      |>.ap (optional r "attributes" "attributes" .empty anyTable)
      |>.ap (optional r "severity" "severity" .info (oneOf Severity.words))
      |>.ap (optional r "confidence" "confidence" 100 (natBetween 0 100))

def Derivation.toJson (d : Derivation) : Json :=
  .obj [("kind", .str d.kind.word), ("derivedRelationship", .ofString? d.derived),
    ("via", .arr (d.via.map PathStep.toJson)), ("targetTypes", stringsOrNull d.targetTypes),
    ("matchProperty", .ofString? d.matchProperty), ("attributes", .ofTable d.attributes),
    ("severity", .str d.severity.word), ("confidence", .int d.confidence)]

def Mapping.decode : Json → Decoded Mapping :=
  record "OntologyMapping" fun r =>
    (Decoded.build Mapping.mk)
      |>.ap (required r "id" "id" idText)
      |>.ap (optional r "sourceType" "source_type" none (nullable string))
      |>.ap (optional r "ontologyClass" "ontology_class" none (nullable string))
      |>.ap (optional r "priority" "priority" 0 integer)
      |>.ap (optional r "description" "description" "" string)
      |>.ap (required r "rule" "rule" Derivation.decode)

def Mapping.toJson (m : Mapping) : Json :=
  .obj [("id", .str m.id), ("sourceType", .ofString? m.sourceType),
    ("ontologyClass", .ofString? m.ontologyClass), ("priority", .int m.priority),
    ("description", .str m.description), ("rule", m.rule.toJson)]

def Preset.decode : Json → Decoded Preset :=
  record "Preset" fun r =>
    (Decoded.build Preset.mk)
      |>.ap (required r "id" "id" idText)
      |>.ap (required r "name" "name" nonEmpty)
      |>.ap (required r "version" "version"
        (formed Text.versionForm (Text.isVersionForm Text.isLaterDigit)))
      |>.ap (optional r "description" "description" "" string)
      |>.ap (optional r "author" "author" none (nullable string))
      |>.ap (required r "nodeTypes" "node_types" (someOf NodeType.decode))
      |>.ap (optional r "relationships" "relationships" [] (listOf Relationship.decode))
      |>.ap (optional r "styling" "styling" {} Styling.decode)
      |>.ap (optional r "behavior" "behavior" {} Behavior.decode)
      |>.ap (optional r "ontologyMappings" "ontology_mappings" [] (listOf Mapping.decode))

def Preset.toJson (p : Preset) : Json :=
  .obj [("id", .str p.id), ("name", .str p.name), ("version", .str p.version),
    ("description", .str p.description), ("author", .ofString? p.author),
    ("nodeTypes", .arr (p.nodeTypes.map NodeType.toJson)),
    ("relationships", .arr (p.relationships.map Relationship.toJson)),
    ("styling", p.styling.toJson), ("behavior", p.behavior.toJson),
    ("ontologyMappings", .arr (p.mappings.map Mapping.toJson))]

/-- The heading of a preset: what it is called and the names of what it declares. -/
def Preset.summary (p : Preset) : Json :=
  .obj [("id", .str p.id), ("name", .str p.name), ("version", .str p.version),
    ("description", .str p.description), ("nodeTypes", .ofStrings (p.nodeTypes.map (·.id))),
    ("relationships", .ofStrings (p.relationships.map (·.id)))]

end GraphWorkbench

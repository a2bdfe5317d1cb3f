import GraphWorkbench.Preset.Format
import GraphWorkbench.Pattern.Reader
import GraphWorkbench.Report
/-!
Validation of presets. The fields are read one by one, and what ties them together is checked on the
candidate as it was written, so that a report is complete even for a candidate that is broken
elsewhere. A candidate is accepted when nothing at all is reported.
-/
namespace GraphWorkbench.Audit

open Schema (Fields Step pathText)

/-- What is wrong between the fields of a preset. -/
inductive Finding where
  | notObject
  | duplicate (what id : String)
  | undeclaredEndType (relationship : Json) (type : String)
  | missingOptions (property : Json) (kind : String)
  | undeclaredRuleProperty (property : String)
  | badPattern (problem : String)
  | limitNotNumber (check : String)
  | limitNotList
  | undeclaredAllowed (type : Json) (relationship : String)
  | ambiguousSource
  | undeclaredType (type : String)
  | unknownClass (name : String)
  | undeclaredRelationship (relationship : String)
  | emptyRule
  | missingVia (kind : String)
  | missingMatchProperty
  | oldVersion (version : String)

def Finding.code : Finding → String
  | .notObject => "invalid-type"
  | .duplicate _ _ => "duplicate-id"
  | .undeclaredEndType _ _ | .undeclaredType _ => "unknown-node-type"
  | .missingOptions _ _ => "missing-options"
  | .undeclaredRuleProperty _ => "unknown-property"
  | .badPattern _ => "invalid-pattern"
  | .limitNotNumber _ | .limitNotList => "invalid-rule-value"
  | .undeclaredAllowed _ _ | .undeclaredRelationship _ => "unknown-relationship"
  | .ambiguousSource => "ambiguous-mapping-source"
  | .unknownClass _ => "unknown-ontology-class"
  | .emptyRule => "empty-rule"
  | .missingVia _ => "missing-via"
  | .missingMatchProperty => "missing-match-property"
  | .oldVersion _ => "unsupported-version"

def Finding.message : Finding → String
  | .notObject => "Preset must be a JSON object"
  | .duplicate what id => s!"Duplicate {what} id '{id}'"
  | .undeclaredEndType relationship type =>
    s!"Relationship '{relationship.text}' references undeclared node type '{type}'"
  | .missingOptions property kind =>
    s!"Property '{property.text}' of type {kind} must declare options"
  | .undeclaredRuleProperty property =>
    s!"Validation rule references undeclared property '{property}'"
  | .badPattern problem => s!"Invalid pattern: {problem}"
  | .limitNotNumber check => s!"Rule '{check}' needs a numeric value"
  | .limitNotList => "Rule 'one-of' needs a list value"
  | .undeclaredAllowed type relationship =>
    s!"Node type '{type.text}' allows undeclared relationship '{relationship}'"
  | .ambiguousSource =>
    "Ontology mapping must declare exactly one of sourceType or ontologyClass"
  | .undeclaredType type => s!"Undeclared node type '{type}'"
  | .unknownClass name => s!"No node type carries ontology class '{name}'"
  | .undeclaredRelationship relationship => s!"Undeclared relationship '{relationship}'"
  | .emptyRule => "Rule derives neither a relationship nor attributes"
  | .missingVia kind => s!"Rule kind '{kind}' requires at least one via step"
  | .missingMatchProperty => "Rule kind 'property-match' requires matchProperty"
  | .oldVersion version =>
    s!"Preset version {version} must be migrated to {currentVersion} before use"

/-- A finding at a place. -/
def Finding.at (f : Finding) (path : List Step) : Violation :=
  ⟨pathText path, f.message, f.code⟩

/-- A field under its name in the exchange format, which counts even when it is null, or under its
plain name; null when there is none. -/
def field (fields : Fields) (name plain : String) : Json :=
  match Entries.get? name fields with
  | some v => v
  | none => (Entries.get? plain fields).getD .null

/-- A field that has one name only; null when there is none. -/
def member (fields : Fields) (name : String) : Json := (Entries.get? name fields).getD .null

/-- The objects of a list with their places. -/
def objects (v : Json) : List (Nat × Fields) :=
  match v with
  | .arr items => items.zipIdx.filterMap fun (item, i) => item.obj?.map (i, ·)
  | _ => []

/-- The texts of a list with their places. -/
def texts (v : Json) : List (Nat × String) :=
  match v with
  | .arr items => items.zipIdx.filterMap fun (item, i) => item.str?.map (i, ·)
  | _ => []

/-- The ids of some objects that are texts. -/
def ids (entries : List (Nat × Fields)) : List String :=
  entries.filterMap fun e => (member e.2 "id").str?

/-- One finding for each object whose id an earlier one has. -/
def duplicates (place : List Step) (what : String) (seen : List String) :
    List (Nat × Fields) → List Violation
  | [] => []
  | (i, fields) :: rest =>
    match member fields "id" with
    | .str id =>
      if seen.contains id then
        (Finding.duplicate what id).at (place ++ [.index i, .key "id"]) ::
          duplicates place what seen rest
      else duplicates place what (id :: seen) rest
    | _ => duplicates place what seen rest

/-- What the parts of a preset may refer to. -/
structure Names where
  types : List String
  relationships : List String
  classes : List String

/-- Whether a value can be looked up among keys. -/
def isKey : Json → Bool
  | .arr _ | .obj _ => false
  | _ => true

/-- Looks a value up among words; lists and objects cannot be looked up. -/
def among (v : Json) (words : List String) : Except Fault Bool :=
  match v with
  | .str s => .ok (words.contains s)
  | v => if isKey v then .ok false else .error .wrongKind

def relationshipFindings (names : Names) (i : Nat) (fields : Fields) : List Violation :=
  [("sourceTypes", "source_types"), ("targetTypes", "target_types")].flatMap fun (name, plain) =>
    (texts (field fields name plain)).filterMap fun (j, type) =>
      if type = wildcard ∨ names.types.contains type then none
      else some ((Finding.undeclaredEndType (member fields "id") type).at
        [.key "relationships", .index i, .key name, .index j])

/-- Properties that choose from options must have some. -/
def propertyFindings (place : List Step) (property : Nat × Fields) :
    Except Fault (List Violation) := do
  let (j, fields) := property
  let kind := member fields "type"
  if ← among kind ["enum", "multiselect"] then
    if (member fields "options").isTruthy then return []
    else return [(Finding.missingOptions (member fields "id") kind.text).at
      (place ++ [.key "properties", .index j, .key "options"])]
  else return []

/-- The limit of a check must be one that the check can use. -/
def limitFindings (place : List Step) (check limit : Json) : Except Fault (List Violation) := do
  if check = .str "pattern" then
    match Pattern.compile limit.text with
    | .ok _ => return []
    | .error (.invalid problem position) =>
      return [(Finding.badPattern (Pattern.describeProblem limit.text problem position)).at place]
    | .error .tooManyRepeats => throw .outOfRange
    | .error .flagConflict => throw (.malformed "ASCII and UNICODE flags are incompatible")
  else if ← among check ["min", "max", "min-length", "max-length"] then
    match limit with
    | .int _ | .float _ => return []
    | _ => return [(Finding.limitNotNumber check.text).at place]
  else if check = .str "one-of" then
    match limit with
    | .arr _ => return []
    | _ => return [Finding.limitNotList.at place]
  else return []

def ruleFindings (place : List Step) (properties : List String) (rule : Nat × Fields) :
    Except Fault (List Violation) := do
  let (j, fields) := rule
  let here := place ++ [.key "validationRules", .index j]
  let target := match member fields "property" with
    | .str property =>
      if properties.contains property then []
      else [(Finding.undeclaredRuleProperty property).at (here ++ [.key "property"])]
    | _ => []
  let limit ← limitFindings (here ++ [.key "value"]) (member fields "rule") (member fields "value")
  return target ++ limit

/-- The findings of all items, in order; the first fault ends the search. -/
def collect {α : Type} (f : α → Except Fault (List Violation)) : List α →
    Except Fault (List Violation)
  | [] => .ok []
  | a :: rest => do
    let here ← f a
    let others ← collect f rest
    return here ++ others

def nodeTypeFindings (names : Names) (nodeType : Nat × Fields) : Except Fault (List Violation) := do
  let (i, fields) := nodeType
  let place : List Step := [.key "nodeTypes", .index i]
  let properties := objects (member fields "properties")
  let twice := duplicates (place ++ [.key "properties"]) "property" [] properties
  let options ← collect (propertyFindings place) properties
  let rules ← collect (ruleFindings place (ids properties))
    (objects (field fields "validationRules" "validation_rules"))
  let allowed :=
    [("incomingRelationships", "incoming_relationships"),
      ("outgoingRelationships", "outgoing_relationships")].flatMap fun (name, plain) =>
      (texts (field fields name plain)).filterMap fun (j, relationship) =>
        if names.relationships.contains relationship then none
        else some ((Finding.undeclaredAllowed (member fields "id") relationship).at
          (place ++ [.key name, .index j]))
  return twice ++ options ++ rules ++ allowed

/-- A mapping names its source by type or by class, and not by both. -/
def sourceFindings (names : Names) (place : List Step) (fields : Fields) : List Violation :=
  let type := field fields "sourceType" "source_type"
  let cls := field fields "ontologyClass" "ontology_class"
  let ambiguous := if type.isNull == cls.isNull then [Finding.ambiguousSource.at place] else []
  let undeclared := match type with
    | .str t =>
      if names.types.contains t then []
      else [(Finding.undeclaredType t).at (place ++ [.key "sourceType"])]
    | _ => []
  let unknown := match cls with
    | .str c =>
      if names.classes.contains c then []
      else [(Finding.unknownClass c).at (place ++ [.key "ontologyClass"])]
    | _ => []
  ambiguous ++ undeclared ++ unknown

def derivationFindings (names : Names) (place : List Step) (fields : Fields) :
    Except Fault (List Violation) := do
  let derived := field fields "derivedRelationship" "derived_relationship"
  let undeclared := match derived with
    | .str r =>
      if names.relationships.contains r then []
      else [(Finding.undeclaredRelationship r).at (place ++ [.key "derivedRelationship"])]
    | _ => []
  let empty :=
    if derived.isNull && !(member fields "attributes").isTruthy then [Finding.emptyRule.at place]
    else []
  let steps := objects (member fields "via")
  let strangers := steps.filterMap fun (j, step) =>
    match member step "relationship" with
    | .str r =>
      if names.relationships.contains r then none
      else some ((Finding.undeclaredRelationship r).at
        (place ++ [.key "via", .index j, .key "relationship"]))
    | _ => none
  let kind := member fields "kind"
  let via :=
    if (← among kind ["neighbors", "path", "transitive"]) && steps.isEmpty then
      [(Finding.missingVia kind.text).at (place ++ [.key "via"])]
    else []
  let matching :=
    if kind = .str "property-match" ∧ !(field fields "matchProperty" "match_property").isTruthy then
      [Finding.missingMatchProperty.at (place ++ [.key "matchProperty"])]
    else []
  let targets := (texts (field fields "targetTypes" "target_types")).filterMap fun (j, type) =>
    if type = wildcard ∨ names.types.contains type then none
    else some ((Finding.undeclaredType type).at (place ++ [.key "targetTypes", .index j]))
  return undeclared ++ empty ++ strangers ++ via ++ matching ++ targets

def mappingFindings (names : Names) (mapping : Nat × Fields) : Except Fault (List Violation) := do
  let (i, fields) := mapping
  let place : List Step := [.key "ontologyMappings", .index i]
  let source := sourceFindings names place fields
  match member fields "rule" with
  | .obj rule => return source ++ (← derivationFindings names (place ++ [.key "rule"]) rule)
  | _ => return source

/-- Everything that is wrong between the fields of a candidate. -/
def crossFindings (fields : Fields) : Except Fault (List Violation) := do
  let nodeTypes := objects (field fields "nodeTypes" "node_types")
  let relationships := objects (member fields "relationships")
  let mappings := objects (field fields "ontologyMappings" "ontology_mappings")
  let names : Names :=
    { types := ids nodeTypes
      relationships := ids relationships
      classes := nodeTypes.filterMap fun e => (field e.2 "ontologyClass" "ontology_class").str? }
  let twice :=
    duplicates [.key "nodeTypes"] "node type" [] nodeTypes ++
    duplicates [.key "relationships"] "relationship" [] relationships ++
    duplicates [.key "ontologyMappings"] "ontology mapping" [] mappings
  let ends := relationships.flatMap fun (i, fields) => relationshipFindings names i fields
  let types ← collect (nodeTypeFindings names) nodeTypes
  let derivations ← collect (mappingFindings names) mappings
  return twice ++ ends ++ types ++ derivations

/-- A version that is well formed must be the current one. The digits here are those of the earlier
tables, so that a version which is written with later ones goes unseen. -/
def versionFindings (fields : Fields) : List Violation :=
  match member fields "version" with
  | .str v =>
    if Text.fitsLine (Text.isVersionForm Text.isDigit) v.toList ∧ v ≠ currentVersion then
      [(Finding.oldVersion v).at [.key "version"]]
    else []
  | _ => []

/-- Validates a candidate: the preset that it is, or everything that is wrong with it. -/
def validate (candidate : Json) : Except Fault (Except (List Violation) Preset) := do
  match candidate with
  | .obj fields =>
    let decoded := Preset.decode candidate
    let shape := match decoded with
      | .ok _ => []
      | .error issues => issues.map (Violation.ofIssue "root")
    let cross ← crossFindings fields
    let violations := shape ++ cross ++ versionFindings fields
    match decoded with
    | .ok preset => return if violations.isEmpty then .ok preset else .error violations
    | .error _ => return .error violations
  | _ => return .error [Finding.notObject.at [.key "root"]]

/-- Validates a preset that was read before, as it is written. -/
def revalidate (p : Preset) : Except Fault (Except (List Violation) Preset) := validate p.toJson

/-- What an accepted preset had better have. -/
def advice (p : Preset) : List String :=
  (p.nodeTypes.filterMap fun t =>
    if (Text.trimChars Text.isBlank t.description.toList).isEmpty then
      some s!"node type '{t.id}' has no description"
    else none) ++
  (if p.relationships.isEmpty then ["no relationships defined"] else []) ++
  (if p.behavior.enableInference && p.mappings.isEmpty then
    ["inference is enabled but no ontology mappings are defined"]
  else [])

end GraphWorkbench.Audit

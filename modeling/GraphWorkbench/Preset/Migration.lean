import GraphWorkbench.Preset.Audit
import GraphWorkbench.Text.Case
import GraphWorkbench.Text.Integer
/-!
Bringing presets of older formats to the current one, step by step. A step works on the free-form
value and changes only what its format changed; what it does not know it leaves alone.
-/
namespace GraphWorkbench.Migration

open Schema (Fields)

/-- A step on a value that should be an object. -/
abbrev Transform := Json → Except Fault Json

/-- Moves a member to a new name, unless the new name is taken; the old name is gone either way. -/
def rename (old new : String) (fields : Fields) : Fields :=
  match Entries.get? old fields with
  | none => fields
  | some v => Entries.putNew new v (Entries.erase old fields)

/-- Changes the objects of a list and leaves all other values as they are. -/
def mapObjects (f : Fields → Except Fault Fields) : Json → Except Fault Json
  | .arr items => do
    let items ← items.mapM fun item =>
      match item with
      | .obj fields => do return .obj (← f fields)
      | v => return v
    return .arr items
  | v => return v

/-- Changes a member, if it is there. -/
def alter (name : String) (f : Json → Except Fault Json) (fields : Fields) : Except Fault Fields :=
  match Entries.get? name fields with
  | none => .ok fields
  | some v => do return Entries.put name (← f v) fields

/-- The words for kinds of properties that older formats used. -/
def formerKinds : List (String × String) :=
  [("text", "string"), ("textarea", "string"), ("select", "enum"), ("checkbox", "boolean"),
    ("link", "url")]

/-- A key as a heading: hyphens and underscores become blanks. A key of nothing else stays. -/
def humanize (key : String) : String :=
  let spaced := key.toList.map fun c => if c = '-' ∨ c = '_' then ' ' else c
  let heading := Text.heading (Text.trimChars Text.isBlank spaced)
  if heading.isEmpty then key else String.ofList heading

/-- The first of some values that counts as true; the last one if none does. -/
def firstTruthy (v : Json) (otherwise : Json) : Json := if v.isTruthy then v else otherwise

def memberOr (fields : Fields) (name : String) (fallback : Json) : Json :=
  (Entries.get? name fields).getD fallback

/-- The current word for a kind of property. -/
def currentKind (kind : Json) : Except Fault Json :=
  match kind with
  | .str s => .ok (.str ((Entries.get? s formerKinds).getD s))
  | v => if Audit.isKey v then .ok v else .error .wrongKind

/-- A property in its present shape. One that has no key has that shape already. -/
def convertProperty (fields : Fields) : Except Fault Fields :=
  match Entries.get? "key" fields with
  | none => .ok fields
  | some key => do
    let name := firstTruthy (memberOr fields "label" .null)
      (firstTruthy (memberOr fields "name" .null) (.str (humanize key.text)))
    let kind ← currentKind (memberOr fields "type" (.str "string"))
    let options := match Entries.get? "options" fields with
      | some o => [("options", o)]
      | none => []
    return [("id", key), ("name", name), ("type", kind),
      ("required", .bool (memberOr fields "required" (.bool false)).isTruthy),
      ("default", memberOr fields "value" .null)] ++ options

/-- The objects of a list. -/
def objectsOf : Json → List Fields
  | .arr items => items.filterMap Json.obj?
  | _ => []

/-- The properties of an element in their present shape; what is no object is dropped. -/
def convertProperties (fields : Fields) : Except Fault Fields := do
  let converted ← (objectsOf (memberOr fields "properties" .null)).mapM convertProperty
  return Entries.put "properties" (.arr (converted.map .obj)) fields

def defaultStyling : Json :=
  .obj [("theme", .str "light"), ("primaryColor", .str "#3b82f6"),
    ("backgroundColor", .str "#ffffff"), ("gridColor", .str "#e5e7eb"),
    ("fontFamily", .str "Inter, sans-serif")]

def defaultBehavior : Json :=
  .obj [("snapToGrid", .bool false), ("gridSize", .int 10), ("maxNodes", .int 1000),
    ("maxEdges", .int 2000)]

/-- What a node type had when it left something out. -/
def fillNodeType (fields : Fields) : Except Fault Fields :=
  .ok <| fields
    |> Entries.putNew "style"
      (.obj [("backgroundColor", .str "#3b82f6"), ("borderColor", .str "#2563eb")])
    |> Entries.putNew "properties" (.arr [])
    |> Entries.putNew "validationRules" (.arr [])
    |> Entries.putNew "ontologyMappings" (.arr [])

/-- What a relationship had when it left something out. -/
def fillRelationship (fields : Fields) : Except Fault Fields :=
  .ok <| fields
    |> Entries.putNew "style"
      (.obj [("strokeColor", .str "#3b82f6"), ("strokeWidth", .int 2)])
    |> Entries.putNew "directionality" (.str "directed")
    |> Entries.putNew "multiplicity" (.str "one-to-many")
    |> Entries.putNew "properties" (.arr [])

/-- From 0.9.0 on, sections that could be left out are written. -/
def fillDefaults : Transform
  | .obj fields => do
    let behavior := match memberOr fields "behavior" .null with
      | .obj b =>
        .obj (Entries.putNew "maxEdges" (.int 2000) (Entries.putNew "maxNodes" (.int 1000) b))
      | _ => defaultBehavior
    let fields := Entries.put "behavior" behavior fields
    let fields := match memberOr fields "styling" .null with
      | .obj _ => fields
      | _ => Entries.put "styling" defaultStyling fields
    let fields ← alter "nodeTypes" (mapObjects fillNodeType) fields
    let relationships :=
      if Entries.has "relationshipTypes" fields then "relationshipTypes" else "relationships"
    return .obj (← alter relationships (mapObjects fillRelationship) fields)
  | _ => .error .noMember

/-- The fault of renaming members of a value that is no object. -/
def renameFault (names : List String) : Json → Fault
  | .arr items => if names.any fun n => items.contains (.str n) then .wrongKind else .noMember
  | .str _ => .noMember
  | _ => .wrongKind

/-- The colour of a node type moves into its style, which takes its background for it otherwise. -/
def moveColor (fields : Fields) : Fields :=
  let style := match memberOr fields "style" .null with
    | .obj style => style
    | _ => []
  let color := memberOr fields "color" .null
  let style :=
    if color.isTruthy then Entries.put "color" color style
    else Entries.putNew "color" (memberOr style "backgroundColor" (.str "#3b82f6")) style
  Entries.erase "color" (Entries.put "style" (.obj style) fields)

/-- From 1.0.0 on, fields have their present names and properties their present shape. -/
def renameFields : Transform
  | .obj fields => do
    let fields := rename "relationshipTypes" "relationships" (rename "label" "name" fields)
    let fields ← alter "nodeTypes" (mapObjects fun t =>
      convertProperties (moveColor (rename "label" "name" t))) fields
    return .obj (← alter "relationships" (mapObjects fun r =>
      convertProperties (rename "targetNodeTypes" "targetTypes"
        (rename "sourceNodeTypes" "sourceTypes" (rename "label" "name" r)))) fields)
  | v => .error (renameFault ["label", "relationshipTypes"] v)

/-- A mapping with a rule, as it stands at the top: its source is the node type that it was found
in. `position` counts from one. -/
def lifted (nodeId : Json) (position : Nat) (mapping : Fields) : Fields :=
  let kept := mapping.filter fun e =>
    e.1 ≠ "sourceType" ∧ e.1 ≠ "ontologyClass" ∧ e.1 ≠ "d3fendClass"
  Entries.put "sourceType" nodeId
    (Entries.putNew "id" (.str s!"{nodeId.text}-mapping-{position}") kept)

/-- The ontology class of a node type, once the mappings without a rule have been looked at. -/
def classFrom (mapping : Fields) (fields : Fields) : Fields :=
  let cls := firstTruthy (memberOr mapping "d3fendClass" .null)
    (memberOr mapping "ontologyClass" .null)
  if cls.isTruthy && !(memberOr fields "ontologyClass" .null).isTruthy then
    Entries.put "ontologyClass" cls fields
  else fields

/-- Takes the mappings out of a node type: the rest of it, and the mappings that have a rule. -/
def liftFrom (fields : Fields) : Fields × List Fields :=
  let fields := rename "allowedRelationships" "outgoingRelationships"
    (rename "d3fendClass" "ontologyClass" fields)
  let nodeId := memberOr fields "id" (.str "node")
  let mappings := (objectsOf (memberOr fields "ontologyMappings" .null)).zipIdx 1
  let fields := Entries.erase "ontologyMappings" fields
  mappings.foldl (fun (fields, up) (mapping, position) =>
    if Entries.has "rule" mapping then (fields, up ++ [lifted nodeId position mapping])
    else (classFrom mapping fields, up)) (fields, [])

/-- From 1.1.0 on, mappings stand at the top and derivations can be switched on. -/
def liftOntology : Transform
  | .obj fields => do
    let top : List Json := match memberOr fields "ontologyMappings" .null with
      | .arr items => items
      | _ => []
    let (nodeTypes, up) : Option Json × List Fields := match Entries.get? "nodeTypes" fields with
      | some (.arr items) =>
        let results : List (Json × List Fields) := items.map fun item =>
          match item with
          | .obj t => let r := liftFrom t; (Json.obj r.1, r.2)
          | v => (v, [])
        (some (Json.arr (results.map Prod.fst)), results.flatMap Prod.snd)
      | v => (v, [])
    let fields : Fields := Entries.put "ontologyMappings" (Json.arr (top ++ up.map Json.obj)) fields
    let fields := match nodeTypes with
      | some v => Entries.put "nodeTypes" v fields
      | none => fields
    let behavior : Fields := match memberOr fields "behavior" .null with
      | .obj b => b
      | _ => []
    let behavior : Fields := Entries.putNew "enableInference" (.bool false)
      (Entries.putNew "historyLimit" (.int 100) behavior)
    return .obj (Entries.put "behavior" (.obj behavior) fields)
  | _ => .error .noMember

/-- One step of the chain between two formats that follow each other. -/
structure ChainStep where
  source : String
  target : String
  description : String
  transform : Transform

def ChainStep.name (s : ChainStep) : String := s!"{s.source} -> {s.target}"

/-- The steps in order; each begins where the one before it ends, and the last ends at the current
format. -/
def chain : List ChainStep :=
  [⟨"0.9.0", "1.0.0", "Fill in sections that 0.9.0 presets were allowed to omit.", fillDefaults⟩,
    ⟨"1.0.0", "1.1.0", "Move to the current field names and the structured property shape.",
      renameFields⟩,
    ⟨"1.1.0", "2.0.0", "Lift per-node ontology mappings to the top level and add inference settings.",
      liftOntology⟩]

def supported : List String := chain.map ChainStep.source ++ [currentVersion]

/-- Why a preset could not be brought to the current format. -/
inductive Refusal where
  | notObject
  | noVersion
  | notVersion (version : Json)
  | unsupported (version : Json)
  | downgrade (source target : String)
  | invalid (violations : List Violation)

def Refusal.message : Refusal → String
  | .notObject => "Preset must be a JSON object"
  | .noVersion => "Preset declares no version"
  | .notVersion v => s!"'{v.text}' is not a semantic version"
  | .unsupported v => s!"Unsupported preset version '{v.text}'"
  | .downgrade source target => s!"Cannot downgrade a preset from {source} to {target}"
  | .invalid violations =>
    s!"Migrated preset failed validation with {violations.length} error(s)"

def Refusal.code : Refusal → String
  | .notObject => "migration-error"
  | .invalid _ => "migrated-preset-invalid"
  | _ => "unsupported-version"

/-- The version that a refusal is about. -/
def Refusal.version? : Refusal → Option Json
  | .noVersion => some (.str "<missing>")
  | .notVersion v => some (.str v.text)
  | .unsupported v => some v
  | .downgrade source _ => some (.str source)
  | _ => none

/-- The numbers of a version. -/
def parseVersion (v : Json) : Except Refusal (List Int) :=
  match v with
  | .str s =>
    match (Text.pointParts s.toList).mapM Text.integer? with
    | some parts => .ok parts
    | none => .error (.notVersion v)
  | v => .error (.notVersion v)

/-- The place of a supported version in the chain. -/
def place? (v : Json) : Option Nat :=
  match v with
  | .str s => supported.findIdx? (· == s)
  | _ => none

/-- The steps from one version to another, which must not be an earlier one. -/
def stepsBetween (source target : Json) : Except Refusal (List ChainStep) :=
  match place? source with
  | none => .error (.unsupported source)
  | some i =>
    match place? target with
    | none => .error (.unsupported target)
    | some j =>
      if j < i then .error (.downgrade source.text target.text)
      else .ok ((chain.take j).drop i)

/-- Writes the version that a value now has. Only an object can carry one. -/
def stamp (version : String) : Json → Except Fault Json
  | .obj fields => .ok (.obj (Entries.put "version" (.str version) fields))
  | _ => .error .wrongKind

/-- Runs steps one after another. -/
def runSteps : List ChainStep → Json → Except Fault Json
  | [], v => .ok v
  | s :: rest, v => do
    let v ← s.transform v
    runSteps rest (← stamp s.target v)

/-- Brings a free-form preset from one version to another. -/
def migrateRaw (raw source target : Json) : Except Fault (Except Refusal Json) :=
  match stepsBetween source target with
  | .error e => .ok (.error e)
  | .ok steps => do return .ok (← runSteps steps raw)

/-- The version that a preset says it has. -/
def versionOf? (raw : Json) : Option String :=
  match raw with
  | .obj fields => (memberOr fields "version" .null).str?
  | _ => none

/-- Whether a preset says that it has an older supported version. -/
def needsMigration (raw : Json) : Bool :=
  match versionOf? raw with
  | some v => v != currentVersion && supported.contains v
  | none => false

/-- The names of the steps that a preset would go through. -/
def pathOf (raw : Json) : Except Refusal (List String) :=
  match versionOf? raw with
  | none => .error .noVersion
  | some v => (stepsBetween (.str v) (.str currentVersion)).map fun steps =>
      steps.map ChainStep.name

/-- Brings a preset to the current format and validates it. A version that is declared beside it
counts more than its own. -/
def migrate (raw declared : Json) : Except Fault (Except Refusal Preset) :=
  match raw with
  | .obj _ =>
    let version : Option Json :=
      if declared.isTruthy then some declared else (versionOf? raw).map .str
    match version with
    | none => .ok (.error .noVersion)
    | some version => do
      match ← migrateRaw raw version (.str currentVersion) with
      | .error e => return .error e
      | .ok migrated =>
        match ← Audit.validate migrated with
        | .ok preset => return .ok preset
        | .error violations => return .error (.invalid violations)
  | _ => .ok (.error .notObject)

end GraphWorkbench.Migration

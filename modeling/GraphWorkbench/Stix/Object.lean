import GraphWorkbench.Calendar.Instant
import GraphWorkbench.Schema.Decode
import GraphWorkbench.Stix.Kind
import GraphWorkbench.Text.Form
/-!
The fields of STIX objects. An object is read against the fields of its kind, each of which brings
its value into a normal form; fields that the kind does not know are kept as they are.
-/
namespace GraphWorkbench.Stix

open Schema

/-- A field of an object: its name, the value it has when it is not given, and how it is read. A
field without such a value must be given. -/
structure Field where
  name : String
  fallback : Option Json
  read : Json → Decoded Json

namespace Field

/-- Reads a value and writes it in normal form. -/
def normal {α : Type} (write : α → Json) (d : Json → Decoded α) (v : Json) : Decoded Json :=
  (Decoded.build write).ap (d v)

def must {α : Type} (name : String) (write : α → Json) (d : Json → Decoded α) : Field :=
  ⟨name, none, normal write d⟩

/-- A field that may be null, which is also its value when it is not given. -/
def may {α : Type} (name : String) (write : α → Json) (d : Json → Decoded α) : Field :=
  let orNull := fun (a : Option α) => match a with
    | some a => write a
    | none => .null
  ⟨name, some .null, normal orNull (nullable d)⟩

/-- A field that holds a list, which is empty when it is not given. -/
def many {α : Type} (name : String) (write : α → Json) (d : Json → Decoded α) : Field :=
  ⟨name, some (.arr []), normal (fun items : List α => .arr (items.map write)) (listOf d)⟩

/-- Reads a field of a record. -/
def decode (f : Field) (record : Fields) : Decoded (String × Json) :=
  (Decoded.build fun v => (f.name, v)).ap <| match f.fallback with
    | none => required record f.name f.name f.read
    | some v => optional record f.name f.name v f.read

end Field

/-- The known fields of a record in order, each in normal form. -/
def readKnown (record : Fields) : List Field → Decoded Fields
  | [] => .ok []
  | f :: rest => ((Decoded.build List.cons).ap (f.decode record)).ap (readKnown record rest)

/-- All fields of a record, the known ones in normal form. -/
def readFields (fields : List Field) (record : Fields) : Decoded Fields :=
  (Decoded.build fun known => Entries.merge record known).ap (readKnown record fields)

/-- A record inside an object, which messages call by a given name. -/
def inner (name : String) (fields : List Field) (v : Json) : Decoded Json :=
  Field.normal .obj (record name (readFields fields)) v

def reference : Json → Decoded String := formed Text.referenceForm Text.isReferenceForm

def killChainPhase : Json → Decoded Json :=
  inner "KillChainPhase" [.must "kill_chain_name" .str string, .must "phase_name" .str string]

def externalReference : Json → Decoded Json :=
  inner "ExternalReference"
    [.must "source_name" .str string, .may "description" .str string, .may "url" .str string,
      .may "external_id" .str string]

/-- The fields of all objects. -/
def commonFields (k : Kind) : List Field :=
  [.must "type" .str (oneOf [(k.word, k.word)]), .must "id" .str reference,
    .may "spec_version" .str string, .must "created" (.str ∘ Calendar.Instant.toText) instant,
    .must "modified" (.str ∘ Calendar.Instant.toText) instant]

def namedFields : List Field :=
  [.must "name" .str nonEmpty, .may "description" .str string,
    .many "external_references" id externalReference]

def phaseField : Field := .many "kill_chain_phases" id killChainPhase

def nameField : Field := .may "name" .str string

/-- The fields of a kind beyond the common ones. -/
def ownFields : Kind → List Field
  | .attackPattern | .tool => namedFields ++ [phaseField]
  | .campaign | .courseOfAction | .infrastructure | .intrusionSet | .vulnerability => namedFields
  | .grouping =>
    [nameField, .must "context" .str nonEmpty, .must "object_refs" .ofStrings (someOf string)]
  | .identity => namedFields ++ [.may "identity_class" .str string]
  | .indicator =>
    [nameField, .must "pattern" .str nonEmpty, .must "pattern_type" .str nonEmpty,
      .must "valid_from" .str nonEmpty, phaseField]
  | .location =>
    [nameField, .may "region" .str string, .may "country" .str string,
      .may "latitude" .float (numberBetween (-90) 90),
      .may "longitude" .float (numberBetween (-180) 180)]
  | .malware =>
    [nameField, .must "is_family" .bool boolean, .many "malware_types" .str string, phaseField]
  | .threatActor => namedFields ++ [.many "threat_actor_types" .str string]
  | .relationship =>
    [.must "relationship_type" .str nonEmpty, .must "source_ref" .str reference,
      .must "target_ref" .str reference, .may "description" .str string]
  | .sighting =>
    [.must "sighting_of_ref" .str reference, .many "where_sighted_refs" .str string,
      .may "count" .int (integerFrom 0)]

/-- The instant under a name of a record. -/
def instantAt? (record : Fields) (name : String) : Option Calendar.Instant :=
  (Entries.get? name record).bind fun v => (instant v).toOption

/-- Whether a record says that it was modified before it was created. -/
def isBackdated (record : Fields) : Bool :=
  match instantAt? record "created", instantAt? record "modified" with
  | some created, some modified => modified.universal < created.universal
  | _, _ => false

def readObject (k : Kind) (record : Fields) : Decoded Fields :=
  match readFields (commonFields k ++ ownFields k) record with
  | .ok fields =>
    if isBackdated record then fault (.rejected "modified must not be earlier than created")
    else .ok fields
  | .error issues => .error issues

/-- The texts of a list under a name. -/
def textsAt (record : Fields) (name : String) : List String :=
  match Entries.get? name record with
  | some (.arr items) => items.filterMap Json.str?
  | _ => []

/-- The field of a kind that holds a list of references. -/
def referenceList? : Kind → Option String
  | .grouping => some "object_refs"
  | .sighting => some "where_sighted_refs"
  | _ => none

/-- The listed references that are malformed. They may end in a line break. -/
def malformedReferences (k : Kind) (fields : Fields) : List String :=
  match referenceList? k with
  | some name => (textsAt fields name).filter fun r =>
      !Text.fitsLine Text.isReferenceForm r.toList
  | none => []

end GraphWorkbench.Stix

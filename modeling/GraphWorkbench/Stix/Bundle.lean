import GraphWorkbench.Json.Source
import GraphWorkbench.Report
import GraphWorkbench.Schema.Decode
/-!
STIX bundles. Only the envelope is read here, so that one bad object does not spoil the others.
-/
namespace GraphWorkbench.Stix

structure Bundle where
  id : Option String := none
  specVersion : Option String := none
  objects : List Json
  /-- The fields of the envelope that mean nothing here. -/
  others : List (String × Json) := []
deriving DecidableEq

/-- Why something is no bundle. -/
inductive BundleError where
  | unreadable (text : String)
  | notObject
  | otherType (type : Json)
  | noObjects
  | badEnvelope (text : String)

def BundleError.message : BundleError → String
  | .unreadable text => s!"Bundle is not valid JSON: {text}"
  | .notObject => "Bundle root must be a JSON object"
  | .otherType type => s!"Expected a STIX bundle, got type '{type.text}'"
  | .noObjects => "Bundle must contain an 'objects' list"
  | .badEnvelope text => s!"Malformed bundle envelope: {text}"

def BundleError.toJson (e : BundleError) : Json :=
  .obj [("code", .str "parse-error"), ("message", .str e.message)]

namespace Bundle

def envelopeNames : List String := ["type", "id", "spec_version", "objects"]

/-- The bundle in a value. -/
def ofJson (v : Json) : Except BundleError Bundle := do
  match v with
  | .obj fields =>
    let type := (Entries.get? "type" fields).getD (.str "bundle")
    if !type.same (.str "bundle") then throw (.otherType type)
    match Entries.get? "objects" fields with
    | some (.arr objects) =>
      let text := fun (name : String) =>
        Schema.optional fields name name none (Schema.nullable Schema.string)
      match (Schema.Decoded.build Prod.mk).ap (text "id") |>.ap (text "spec_version") with
      | .ok (id, specVersion) =>
        let others := fields.filter fun f => !envelopeNames.contains f.1
        return { id, specVersion, objects, others }
      | .error issues =>
        throw (.badEnvelope ((issues.head?.map fun i => i.flaw.message).getD ""))
    | _ => throw .noObjects
  | _ => throw .notObject

/-- The envelope with the number of its objects in place of them. -/
def envelope (b : Bundle) : Json :=
  .obj (b.others ++ [("type", .str "bundle"), ("id", .ofString? b.id),
    ("spec_version", .ofString? b.specVersion), ("objects", .int b.objects.length)])

/-- Where bundles come from: a value at hand, or a source to be read. -/
inductive Origin where
  | value (v : Json)
  | source (s : Json.Source)

/-- The bundle of an origin; a number of too many digits is a fault. -/
def read : Origin → Except Fault (Except BundleError Bundle)
  | .value v => .ok (ofJson v)
  | .source s => match s.read with
    | .ok v => .ok (ofJson v)
    | .error e =>
      if e.isLongInteger then .error (.malformed e.message)
      else .ok (.error (.unreadable e.message))

end Bundle

end GraphWorkbench.Stix

import GraphWorkbench.Preset.Words
import GraphWorkbench.Report
/-!
Why a mutation is not committed. A rejection is an answer of the document's rules; a stop is a
rejection or a fault met on the way.
-/
namespace GraphWorkbench

/-- What is wrong with a property of an element. -/
inductive PropertyDefect where
  | missing
  | otherKind (kind : PropertyKind) (options : Option (List String))
  | againstRule (rule : Rule)
deriving DecidableEq

/-- The literal form of a list of options, or of its absence. -/
def optionsLiteral (options : Option (List String)) : String :=
  match options with
  | some o => (Json.ofStrings o).literal
  | none => Json.null.literal

def Rule.refusal (r : Rule) : String :=
  let own := r.message.getD ""
  if own.isEmpty then s!"fails {r.check.word} {r.limit.literal}" else own

def PropertyDefect.message (property : String) : PropertyDefect → String
  | .missing => s!"Missing required property '{property}'"
  | .otherKind kind options =>
    let wanted := match kind with
      | .text => "a string"
      | .number => "a number"
      | .boolean => "a boolean"
      | .date => "an ISO-8601 date"
      | .url => "an http(s) URL"
      | .choice => s!"one of {optionsLiteral options}"
      | .choices => s!"a list drawn from {optionsLiteral options}"
    s!"Property '{property}' must be {wanted}"
  | .againstRule rule => s!"Property '{property}' {rule.refusal}"

/-- Why the rules of a document refuse a change. Each cause names the element that it is about. -/
inductive Rejection where
  | unknownNodeType (node typeId preset : String)
  | unknownRelationship (edge typeId preset : String)
  | unfitEnds (edge relationship source target : String)
  | missingEnd (edge node : String)
  | tooMany (edge relationship : String) (multiplicity : Multiplicity)
  | nodeExists (id : String)
  | edgeExists (id : String)
  | noNode (id : String)
  | noEdge (id : String)
  | badProperty (element property : String) (defect : PropertyDefect)
  | inferredEdge (edge : String)
  | nodesFull (node : String) (limit : Nat)
  | edgesFull (edge : String) (limit : Nat)
deriving DecidableEq

namespace Rejection

def code : Rejection → String
  | .unknownNodeType .. => "unknown-node-type"
  | .unknownRelationship .. => "unknown-relationship-type"
  | .unfitEnds .. => "endpoint-type-violation"
  | .missingEnd .. => "dangling-reference"
  | .tooMany .. => "multiplicity-violation"
  | .nodeExists _ | .edgeExists _ => "duplicate-id"
  | .noNode _ | .noEdge _ => "not-found"
  | .badProperty .. => "property-violation"
  | .inferredEdge _ => "inferred-edge-read-only"
  | .nodesFull .. | .edgesFull .. => "capacity-exceeded"

/-- The element that a rejection is about. -/
def element : Rejection → String
  | .unknownNodeType node _ _ => node
  | .unknownRelationship edge _ _ => edge
  | .unfitEnds edge _ _ _ => edge
  | .missingEnd edge _ => edge
  | .tooMany edge _ _ => edge
  | .nodeExists id | .edgeExists id | .noNode id | .noEdge id => id
  | .badProperty element _ _ => element
  | .inferredEdge edge => edge
  | .nodesFull node _ => node
  | .edgesFull edge _ => edge

def message : Rejection → String
  | .unknownNodeType _ typeId preset =>
    s!"Node type '{typeId}' is not defined by preset '{preset}'"
  | .unknownRelationship _ typeId preset =>
    s!"Relationship '{typeId}' is not defined by preset '{preset}'"
  | .unfitEnds _ relationship source target =>
    s!"Relationship '{relationship}' cannot connect '{source}' to '{target}'"
  | .missingEnd edge node => s!"Edge '{edge}' references missing node '{node}'"
  | .tooMany edge relationship multiplicity =>
    s!"Relationship '{relationship}' is {multiplicity.word}; edge '{edge}' would exceed it"
  | .nodeExists id => s!"Node '{id}' already exists"
  | .edgeExists id => s!"Edge '{id}' already exists"
  | .noNode id => s!"Node '{id}' does not exist"
  | .noEdge id => s!"Edge '{id}' does not exist"
  | .badProperty _ property defect => defect.message property
  | .inferredEdge edge => s!"Edge '{edge}' is marked inferred; derived edges cannot be authored"
  | .nodesFull _ limit => s!"Document already holds the maximum of {limit} nodes"
  | .edgesFull _ limit => s!"Document already holds the maximum of {limit} edges"

/-- The place of a rejection: a property, or else the element, or else the mutation as such. -/
def path : Rejection → String
  | .badProperty _ property _ => s!"properties.{property}"
  | r => if r.element.isEmpty then "mutation" else r.element

def violation (r : Rejection) : Violation := ⟨r.path, r.message, r.code⟩

def toJson (r : Rejection) : Json :=
  .obj [("code", .str r.code), ("message", .str r.message), ("element_id", .str r.element)]

end Rejection

/-- Why a change came to nothing. -/
inductive Stop where
  | rejected (r : Rejection)
  | fault (f : Fault)
deriving DecidableEq

/-- A fault ends a change. -/
def Stop.ofFault {α : Type} (r : Except Fault α) : Except Stop α := r.mapError .fault

end GraphWorkbench

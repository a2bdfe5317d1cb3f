import GraphWorkbench.Json.Basic
/-!
The kinds of STIX objects that can be imported. Relationships and sightings connect objects; all
other kinds stand for things.
-/
namespace GraphWorkbench.Stix

inductive Kind where
  | attackPattern
  | campaign
  | courseOfAction
  | grouping
  | identity
  | indicator
  | infrastructure
  | intrusionSet
  | location
  | malware
  | relationship
  | sighting
  | threatActor
  | tool
  | vulnerability
deriving DecidableEq, Inhabited

namespace Kind

/-- The kinds under the names that objects give as their type, sorted by name. -/
def words : List (String × Kind) :=
  [("attack-pattern", .attackPattern), ("campaign", .campaign),
    ("course-of-action", .courseOfAction), ("grouping", .grouping), ("identity", .identity),
    ("indicator", .indicator), ("infrastructure", .infrastructure),
    ("intrusion-set", .intrusionSet), ("location", .location), ("malware", .malware),
    ("relationship", .relationship), ("sighting", .sighting), ("threat-actor", .threatActor),
    ("tool", .tool), ("vulnerability", .vulnerability)]

def word : Kind → String
  | .attackPattern => "attack-pattern"
  | .campaign => "campaign"
  | .courseOfAction => "course-of-action"
  | .grouping => "grouping"
  | .identity => "identity"
  | .indicator => "indicator"
  | .infrastructure => "infrastructure"
  | .intrusionSet => "intrusion-set"
  | .location => "location"
  | .malware => "malware"
  | .relationship => "relationship"
  | .sighting => "sighting"
  | .threatActor => "threat-actor"
  | .tool => "tool"
  | .vulnerability => "vulnerability"

def ofWord? (word : String) : Option Kind := Entries.get? word words

/-- Whether objects of a kind connect others. -/
def connects : Kind → Bool
  | .relationship | .sighting => true
  | _ => false

end Kind

end GraphWorkbench.Stix

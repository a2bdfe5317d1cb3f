import Mathlib.Tactic.MkIffOfInductiveProp
import GraphWorkbench.Pattern.Reader
import GraphWorkbench.Preset.Basic
/-!
What ties the parts of a preset together: ids are told apart, what is named is declared, and each
rule and derivation has what its kind needs.
-/
namespace GraphWorkbench

def Preset.typeIds (p : Preset) : List String := p.nodeTypes.map (·.id)

def Preset.relationshipIds (p : Preset) : List String := p.relationships.map (·.id)

/-- The ontology classes that node types carry. -/
def Preset.classes (p : Preset) : List String := p.nodeTypes.filterMap (·.ontologyClass)

def NodeType.propertyIds (t : NodeType) : List String := t.properties.map (·.id)

/-- A name of a node type of the preset, or of all of them. -/
def Preset.NamesType (p : Preset) (type : String) : Prop := type = wildcard ∨ type ∈ p.typeIds

instance (p : Preset) : DecidablePred p.NamesType := fun type =>
  inferInstanceAs (Decidable (type = wildcard ∨ type ∈ p.typeIds))

/-- A property that chooses from options has some. -/
def Property.WellFormed (q : Property) : Prop :=
  q.kind = .choice ∨ q.kind = .choices → q.options.getD [] ≠ []

/-- The limit is of the kind that the check needs: a pattern that can be read, a number other than a
truth value, or a list. -/
def Rule.Usable (r : Rule) : Prop :=
  match r.check with
  | .pattern => ∃ pattern, Pattern.compile r.limit.text = .ok pattern
  | .min | .max | .minLength | .maxLength => (∃ n, r.limit = .int n) ∨ ∃ x, r.limit = .float x
  | .oneOf => ∃ items, r.limit = .arr items

structure NodeType.WellFormed (p : Preset) (t : NodeType) : Prop where
  properties_unique : t.propertyIds.Nodup
  options : ∀ q ∈ t.properties, q.WellFormed
  rules : ∀ r ∈ t.rules, r.property ∈ t.propertyIds ∧ r.Usable
  incoming : ∀ id ∈ t.incoming.getD [], id ∈ p.relationshipIds
  outgoing : ∀ id ∈ t.outgoing.getD [], id ∈ p.relationshipIds

structure Relationship.WellFormed (p : Preset) (r : Relationship) : Prop where
  sources : ∀ type ∈ r.sourceTypes, p.NamesType type
  targets : ∀ type ∈ r.targetTypes, p.NamesType type

@[mk_iff]
structure Derivation.WellFormed (p : Preset) (d : Derivation) : Prop where
  derived : ∀ r, d.derived = some r → r ∈ p.relationshipIds
  derives : d.derived ≠ none ∨ d.attributes ≠ .empty
  via : ∀ step ∈ d.via, step.relationship ∈ p.relationshipIds
  walks : d.kind = .neighbors ∨ d.kind = .path ∨ d.kind = .transitive → d.via ≠ []
  compares : d.kind = .propertyMatch → ∃ key, d.matchProperty = some key ∧ key ≠ ""
  targets : ∀ type ∈ d.targetTypes.getD [], p.NamesType type

structure Mapping.WellFormed (p : Preset) (m : Mapping) : Prop where
  one_source : m.sourceType = none ↔ m.ontologyClass ≠ none
  type : ∀ t, m.sourceType = some t → t ∈ p.typeIds
  class_carried : ∀ c, m.ontologyClass = some c → c ∈ p.classes
  rule : m.rule.WellFormed p

structure Preset.WellFormed (p : Preset) : Prop where
  types_unique : p.typeIds.Nodup
  relationships_unique : p.relationshipIds.Nodup
  mappings_unique : (p.mappings.map (·.id)).Nodup
  relationships : ∀ r ∈ p.relationships, r.WellFormed p
  types : ∀ t ∈ p.nodeTypes, t.WellFormed p
  mappings : ∀ m ∈ p.mappings, m.WellFormed p

end GraphWorkbench

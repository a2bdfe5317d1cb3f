import GraphWorkbench.Document.Value
import GraphWorkbench.Proofs.Preset.Audit
import GraphWorkbench.Proofs.Preset.Writing
/-!
What validation says of properties. Those of node types are looked at: their ids differ, and each
that chooses from options has some, one of which can be chosen. Those of relationships are not
looked at: whatever they are, the preset is accepted or refused just the same.
-/
namespace GraphWorkbench

open Outcome
open Schema (listOf)

/-- A value that chooses one option. -/
def PropertyKind.choosing (kind : PropertyKind) (option : String) : Json :=
  if kind = .choices then .arr [.str option] else .str option

/-- Any option of a property that chooses can be chosen. -/
theorem PropertyKind.admits_choosing {kind : PropertyKind} {options : List String} {option : String}
    (hkind : kind = .choice ∨ kind = .choices) (hoption : option ∈ options) :
    kind.admits options (kind.choosing option) = .ok true := by
  rcases hkind with rfl | rfl
  · simp [choosing, admits, hoption]
  · simp [choosing, admits, hoption]

/-- Where there are no options, no value is one of them. -/
theorem PropertyKind.admits_choice_nil (v : Json) :
    PropertyKind.choice.admits [] v = .ok false := by
  cases v <;> rfl

/-- The ids of some properties differ, and each that chooses has an option that it can choose. -/
structure PropertiesSound (properties : List Property) : Prop where
  unique : (properties.map (·.id)).Nodup
  choosable : ∀ q ∈ properties, q.kind = .choice ∨ q.kind = .choices →
    ∃ option ∈ q.options.getD [],
      q.kind.admits (q.options.getD []) (q.kind.choosing option) = .ok true

theorem NodeType.WellFormed.propertiesSound {p : Preset} {t : NodeType} (h : t.WellFormed p) :
    PropertiesSound t.properties := by
  refine ⟨h.properties_unique, fun q hq hkind => ?_⟩
  have hsome : q.options.getD [] ≠ [] := h.options q hq hkind
  obtain ⟨option, hoption⟩ := List.exists_mem_of_ne_nil _ hsome
  exact ⟨option, hoption, PropertyKind.admits_choosing hkind hoption⟩

namespace Preset

/-- A preset with other properties of its relationships. -/
def withProperties (p : Preset) (others : Relationship → List Property) : Preset :=
  { p with relationships := p.relationships.map fun r => { r with properties := others r } }

variable {p : Preset} {others : Relationship → List Property}

theorem relationshipIds_withProperties :
    (p.withProperties others).relationshipIds = p.relationshipIds := by
  simp [relationshipIds, withProperties]

/-- Nothing that is asked of a preset depends on the properties of its relationships. -/
theorem WellFormed.withProperties (h : p.WellFormed) : (p.withProperties others).WellFormed := by
  have hids : (p.withProperties others).relationshipIds = p.relationshipIds :=
    relationshipIds_withProperties
  refine ⟨h.types_unique, ?_, h.mappings_unique, ?_, ?_, ?_⟩
  · rw [hids]
    exact h.relationships_unique
  · intro r' hr'
    obtain ⟨r, hr, rfl⟩ := List.mem_map.mp hr'
    exact ⟨(h.relationships r hr).sources, (h.relationships r hr).targets⟩
  · intro t ht
    have hwell := h.types t ht
    refine ⟨hwell.properties_unique, hwell.options, hwell.rules, ?_, ?_⟩
    · rw [hids]
      exact hwell.incoming
    · rw [hids]
      exact hwell.outgoing
  · intro m hm
    have hwell := h.mappings m hm
    refine ⟨hwell.one_source, hwell.type, hwell.class_carried, ?_, hwell.rule.derives, ?_,
      hwell.rule.walks, hwell.rule.compares, hwell.rule.targets⟩
    · rw [hids]
      exact hwell.rule.derived
    · rw [hids]
      exact hwell.rule.via

theorem exists_decode_of_mem {fields : Schema.Fields} {r : Relationship}
    (h : Preset.decode (.obj fields) = .ok p) (hr : r ∈ p.relationships) :
    ∃ v, Relationship.decode v = .ok r := by
  have hread : List.Forall₂ _ _ p.relationships := (Preset.shown_of_decode h).relationships
  generalize Audit.objects _ = es, p.relationships = rs at hread hr
  induction hread with
  | nil => simp at hr
  | cons hhead _ ih =>
    rcases List.mem_cons.mp hr with rfl | hrest
    · exact ⟨_, hhead⟩
    · exact ih hrest

end Preset

namespace Audit

variable {candidate : Json} {p : Preset} {others : Relationship → List Property}

/-- A preset is accepted with any properties of its relationships as long as they have ids and
names. -/
theorem validate_withProperties (h : validate candidate = .ok (.ok p))
    (hothers : ∀ r ∈ p.relationships, ∀ q ∈ others r, q.id ≠ "" ∧ q.name ≠ "") :
    validate (p.withProperties others).toJson = .ok (.ok (p.withProperties others)) := by
  cases candidate with
  | obj fields =>
    obtain ⟨hread, hcross, hversion⟩ := validate_obj_eq_ok_iff.mp h
    have hrelationships : listOf Relationship.decode
        (.arr ((p.withProperties others).relationships.map Relationship.toJson)) =
        .ok (p.withProperties others).relationships := by
      refine Schema.listOf_map_eq_ok fun r' hr' => ?_
      obtain ⟨r, hr, rfl⟩ := List.mem_map.mp hr'
      obtain ⟨v, hv⟩ := Preset.exists_decode_of_mem hread hr
      refine Relationship.rereads_with hv (Schema.listOf_map_eq_ok fun q hq => ?_)
      obtain ⟨hid, hname⟩ := hothers r hr q hq
      exact Property.decode_toJson hid hname
    have hreread : Preset.decode (p.withProperties others).toJson = .ok (p.withProperties others) :=
      Preset.rereads_with hread hrelationships
    have hshown := Preset.shown_of_decode hread
    have hshown' := Preset.shown_of_decode hreread
    have hwell := (crossFindings_eq_nil_iff hshown).mp hcross
    -- the version is the same in both
    have hguard := (versionFindings_eq_nil_iff hshown).mp hversion
    exact validate_obj_eq_ok_iff.mpr ⟨hreread,
      (crossFindings_eq_nil_iff hshown').mpr hwell.withProperties,
      (versionFindings_eq_nil_iff hshown').mpr hguard⟩
  | _ => exact absurd (Except.ok.inj h) (by simp)

/-- In an accepted preset the properties of each node type are sound. The properties of
relationships need not be: the preset is accepted with any others in their place that have ids and
names. -/
theorem validate_properties (h : validate candidate = .ok (.ok p)) :
    (∀ t ∈ p.nodeTypes, PropertiesSound t.properties) ∧
      ∀ others : Relationship → List Property,
        (∀ r ∈ p.relationships, ∀ q ∈ others r, q.id ≠ "" ∧ q.name ≠ "") →
        validate (p.withProperties others).toJson = .ok (.ok (p.withProperties others)) := by
  have hwell := wellFormed_of_validate h
  constructor
  · intro t ht
    exact (hwell.types t ht).propertiesSound
  · intro others hothers
    exact validate_withProperties h hothers

/-- A node type with a property that chooses, and a relationship to which another property is given
twice. -/
theorem validate_properties_twice :
    let candidate : Json := .obj [("id", .str "a"), ("name", .str "A"), ("version", .str "2.0.0"),
      ("nodeTypes", .arr [.obj [("id", .str "n"), ("name", .str "N"),
        ("style", .obj [("color", .str "#000000")]),
        ("properties", .arr [.obj [("id", .str "p"), ("name", .str "P"), ("type", .str "enum"),
          ("options", .arr [.str "x"])]])]]),
      ("relationships", .arr [.obj [("id", .str "r"), ("name", .str "R"),
        ("sourceTypes", .arr [.str "n"]), ("targetTypes", .arr [.str "n"])]])]
    let p : Preset :=
      { id := "a", name := "A", version := "2.0.0",
        nodeTypes := [
          { id := "n", name := "N", style := { color := "#000000" },
            properties := [{ id := "p", name := "P", kind := .choice, options := some ["x"] }] }],
        relationships := [{ id := "r", name := "R", sourceTypes := ["n"], targetTypes := ["n"] }] }
    let q : Property := { id := "q", name := "Q" }
    validate candidate = .ok (.ok p) ∧ (∀ t ∈ p.nodeTypes, PropertiesSound t.properties) ∧
      validate (p.withProperties fun _ => [q, q]).toJson =
        .ok (.ok (p.withProperties fun _ => [q, q])) := by
  intro candidate p q
  have haccepted : validate candidate = .ok (.ok p) := by decide +kernel
  obtain ⟨hsound, hany⟩ := validate_properties haccepted
  exact ⟨haccepted, hsound, hany (fun _ => [q, q]) (by decide)⟩

/-- The relationship has two properties of one id, and they choose from no options, so that no value
can be given to them. -/
theorem validate_relationship_choice :
    let q : Property := { id := "p", name := "P", kind := .choice }
    let p : Preset :=
      { id := "a", name := "A", version := "2.0.0",
        nodeTypes := [{ id := "n", name := "N", style := { color := "#000000" } }],
        relationships := [
          { id := "r", name := "R", sourceTypes := ["n"], targetTypes := ["n"],
            properties := [q, q] }] }
    validate p.toJson = .ok (.ok p) ∧
      ∃ r ∈ p.relationships, ¬ (r.properties.map (·.id)).Nodup ∧
        ∀ q ∈ r.properties, ∀ v, q.kind.admits (q.options.getD []) v = .ok false := by
  intro q p
  refine ⟨by decide +kernel, _, List.mem_singleton.mpr rfl, by decide, ?_⟩
  intro q' hq' v
  obtain rfl : q' = q := by simpa using hq'
  exact PropertyKind.admits_choice_nil v

end Audit

end GraphWorkbench

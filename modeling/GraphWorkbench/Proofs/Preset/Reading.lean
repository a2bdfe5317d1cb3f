import GraphWorkbench.Preset.Audit
import GraphWorkbench.Proofs.Schema.Reading
/-!
The two readings of a preset. A candidate is read into a preset field by field, and it is looked
over as it was written, through fields, lists of objects and lists of texts. When the first reading
succeeds, the second one sees the same preset: for each record there is a statement of what its
fields show.
-/
namespace GraphWorkbench

open Schema (Fields itemsOf valueOf)
open Audit (field member objects texts ids)

namespace Audit

variable {α : Type} {d : Json → Schema.Decoded α} {v : Json}

/-- The name of a field in the exchange format goes before its plain name in both readings. -/
theorem field_eq_valueOf (fields : Fields) (name plain : String) :
    field fields name plain = valueOf name plain fields := by
  unfold field valueOf Schema.lookup
  cases Entries.get? name fields with
  | none => rfl
  | some v => rfl

theorem member_eq_valueOf (fields : Fields) (name : String) :
    member fields name = valueOf name name fields := by
  unfold member valueOf Schema.lookup
  cases Entries.get? name fields with
  | none => rfl
  | some v => rfl

/-- The objects in a value are, one by one, what a list of records was read from. -/
def Holds (d : Json → Schema.Decoded α) (v : Json) (as : List α) : Prop :=
  List.Forall₂ (fun e a => d (.obj e.2) = .ok a) (objects v) as

theorem objects_eq (v : Json) :
    objects v = (itemsOf v).zipIdx.filterMap fun (item, i) => item.obj?.map (i, ·) := by
  cases v <;> rfl

theorem texts_eq (v : Json) :
    texts v = (itemsOf v).zipIdx.filterMap fun (item, i) => item.str?.map (i, ·) := by
  cases v <;> rfl

/-- A list of which every item was read as a record holds these records. -/
theorem holds_of_items (hobj : ∀ {v a}, d v = .ok a → ∃ fields, v = .obj fields) {as : List α}
    (h : List.Forall₂ (fun v a => d v = .ok a) (itemsOf v) as) : Holds d v as := by
  rw [Holds, objects_eq]
  generalize itemsOf v = items at h
  -- the places do not matter, so the count may start anywhere
  generalize 0 = i
  induction h generalizing i with
  | nil => exact List.Forall₂.nil
  | cons hread _ ih =>
    obtain ⟨fields, rfl⟩ := hobj hread
    exact List.Forall₂.cons hread (ih (i + 1))

namespace Holds

variable {β : Type} {as : List α}

/-- Something holds of all objects in a value when something else holds of what they were read as. -/
theorem forall_iff (h : Holds d v as) {P : Nat × Fields → Prop} {Q : α → Prop}
    (hread : ∀ {i fields a}, d (.obj fields) = .ok a → (P (i, fields) ↔ Q a)) :
    (∀ e ∈ objects v, P e) ↔ ∀ a ∈ as, Q a := by
  unfold Holds at h
  generalize objects v = es at h ⊢
  induction h with
  | nil => simp
  | cons he _ ih => rw [List.forall_mem_cons, List.forall_mem_cons, ih, hread he]

theorem filterMap_eq (h : Holds d v as) {f : Nat × Fields → Option β} {g : α → Option β}
    (hread : ∀ {i fields a}, d (.obj fields) = .ok a → f (i, fields) = g a) :
    (objects v).filterMap f = as.filterMap g := by
  unfold Holds at h
  generalize objects v = es at h ⊢
  induction h with
  | nil => rfl
  | cons he _ ih => rw [List.filterMap_cons, List.filterMap_cons, ih, hread he]

theorem ids_eq (h : Holds d v as) {id : α → String}
    (hread : ∀ {fields a}, d (.obj fields) = .ok a → member fields "id" = .str (id a)) :
    ids (objects v) = as.map id := by
  have hsome : ids (objects v) = as.filterMap (some ∘ id) := by
    apply h.filterMap_eq
    intro i fields a ha
    rw [hread ha]
    rfl
  rw [hsome, List.filterMap_eq_map]

theorem objects_eq_nil_iff (h : Holds d v as) : objects v = [] ↔ as = [] := by
  unfold Holds at h
  constructor
  · intro hnil
    rw [hnil] at h
    exact List.forall₂_nil_left_iff.mp h
  · intro hnil
    rw [hnil] at h
    exact List.forall₂_nil_right_iff.mp h

end Holds

theorem map_texts {ss : List String} (h : itemsOf v = ss.map .str) :
    (texts v).map Prod.snd = ss := by
  rw [texts_eq, h]
  clear h
  generalize 0 = i
  induction ss generalizing i with
  | nil => rfl
  | cons s rest ih => exact congrArg (s :: ·) (ih (i + 1))

end Audit

open Audit

theorem stringsOrNull_of_nullable {v : Json} {o : Option (List String)}
    (h : Schema.nullable (Schema.listOf Schema.string) v = .ok o) : v = stringsOrNull o := by
  cases v with
  | null =>
    obtain rfl : none = o := Except.ok.inj h
    rfl
  | arr items =>
    cases hread : Schema.listOf Schema.string (.arr items) with
    | ok ss =>
      obtain rfl : some ss = o := by simpa [Schema.nullable, hread] using h
      have hitems := Schema.eq_map_str_of_forall₂ (Schema.forall₂_of_listOf hread)
      exact congrArg Json.arr hitems
    | error issues => simp [Schema.nullable, hread] at h
  | _ => exact absurd h (by simp [Schema.nullable, Schema.listOf, Schema.fault])

/-- The texts of a list that may be null. -/
theorem Audit.map_texts_stringsOrNull (o : Option (List String)) :
    (texts (stringsOrNull o)).map Prod.snd = o.getD [] := by
  apply Audit.map_texts
  cases o <;> rfl

section Words

/-! Each choice is named by one word. -/

theorem PropertyKind.words_word : ∀ e ∈ PropertyKind.words, e.1 = e.2.word := by decide

theorem Check.words_word : ∀ e ∈ Check.words, e.1 = e.2.word := by decide

theorem DerivationKind.words_word : ∀ e ∈ DerivationKind.words, e.1 = e.2.word := by decide

end Words

variable {fields : Fields}

/-- What the fields of a property show of it. -/
structure Property.Shown (fields : Fields) (q : Property) : Prop where
  id : member fields "id" = .str q.id
  kind : member fields "type" = .str q.kind.word ∨ member fields "type" = .null ∧ q.kind = .text
  options : member fields "options" = stringsOrNull q.options

theorem Property.shown_of_decode {q : Property} (h : Property.decode (.obj fields) = .ok q) :
    q.Shown fields := by
  simp only [Property.decode, Schema.record, Schema.Decoded.ap_eq_ok_iff, Except.ok.injEq,
    ↓existsAndEq, true_and, exists_and_left, and_assoc] at h
  obtain ⟨id, hid, _, _, kind, hkind, _, _, options, hoptions, _, _, rfl⟩ := h
  refine ⟨?_, ?_, ?_⟩
  · rw [member_eq_valueOf]
    exact Schema.eq_str_of_nonEmpty (Schema.eq_ok_of_required hid)
  · rw [member_eq_valueOf]
    rcases Schema.cases_of_optional hkind with hread | hnone
    · exact .inl (Schema.eq_str_of_oneOf PropertyKind.words_word hread)
    · exact .inr hnone
  · rw [member_eq_valueOf]
    exact stringsOrNull_of_nullable (Schema.eq_ok_of_optional_nullable hoptions)

/-- What the fields of a rule show of it. -/
structure Rule.Shown (fields : Fields) (r : Rule) : Prop where
  property : member fields "property" = .str r.property
  check : member fields "rule" = .str r.check.word
  limit : member fields "value" = r.limit

theorem Rule.shown_of_decode {r : Rule} (h : Rule.decode (.obj fields) = .ok r) :
    r.Shown fields := by
  simp only [Rule.decode, Schema.record, Schema.Decoded.ap_eq_ok_iff, Except.ok.injEq,
    ↓existsAndEq, true_and, exists_and_left, and_assoc] at h
  obtain ⟨property, hproperty, check, hcheck, limit, hlimit, _, _, rfl⟩ := h
  refine ⟨?_, ?_, ?_⟩
  · rw [member_eq_valueOf]
    exact Schema.eq_str_of_nonEmpty (Schema.eq_ok_of_required hproperty)
  · rw [member_eq_valueOf]
    exact Schema.eq_str_of_oneOf Check.words_word (Schema.eq_ok_of_required hcheck)
  · rw [member_eq_valueOf]
    exact Except.ok.inj (Schema.eq_ok_of_required hlimit)

/-- What the fields of a node type show of it. -/
structure NodeType.Shown (fields : Fields) (t : NodeType) : Prop where
  id : member fields "id" = .str t.id
  ontologyClass : field fields "ontologyClass" "ontology_class" = .ofString? t.ontologyClass
  properties : Holds Property.decode (member fields "properties") t.properties
  rules : Holds Rule.decode (field fields "validationRules" "validation_rules") t.rules
  incoming : field fields "incomingRelationships" "incoming_relationships" =
    stringsOrNull t.incoming
  outgoing : field fields "outgoingRelationships" "outgoing_relationships" =
    stringsOrNull t.outgoing

theorem NodeType.shown_of_decode {t : NodeType} (h : NodeType.decode (.obj fields) = .ok t) :
    t.Shown fields := by
  simp only [NodeType.decode, Schema.record, Schema.Decoded.ap_eq_ok_iff, Except.ok.injEq,
    ↓existsAndEq, true_and, exists_and_left, and_assoc] at h
  obtain ⟨id, hid, _, _, _, _, _, _, cls, hcls, properties, hproperties, rules, hrules, incoming,
    hincoming, outgoing, houtgoing, _, _, rfl⟩ := h
  refine ⟨?_, ?_, ?_, ?_, ?_, ?_⟩
  · rw [member_eq_valueOf]
    exact (Schema.eq_str_of_formed (Schema.eq_ok_of_required hid)).1
  · rw [field_eq_valueOf]
    exact Schema.eq_ofString?_of_nullable (Schema.eq_ok_of_optional_nullable hcls)
  · rw [member_eq_valueOf]
    exact holds_of_items Schema.exists_obj_of_record
      (Schema.forall₂_of_optional_listOf hproperties)
  · rw [field_eq_valueOf]
    exact holds_of_items Schema.exists_obj_of_record (Schema.forall₂_of_optional_listOf hrules)
  · rw [field_eq_valueOf]
    exact stringsOrNull_of_nullable (Schema.eq_ok_of_optional_nullable hincoming)
  · rw [field_eq_valueOf]
    exact stringsOrNull_of_nullable (Schema.eq_ok_of_optional_nullable houtgoing)

/-- What the fields of a relationship show of it. -/
structure Relationship.Shown (fields : Fields) (r : Relationship) : Prop where
  id : member fields "id" = .str r.id
  sourceTypes : field fields "sourceTypes" "source_types" = .ofStrings r.sourceTypes
  targetTypes : field fields "targetTypes" "target_types" = .ofStrings r.targetTypes

theorem ofStrings_of_someOf {v : Json} {ss : List String}
    (h : Schema.someOf Schema.string v = .ok ss) : v = .ofStrings ss := by
  have hlist := Schema.eq_ok_of_checked h
  cases v with
  | arr items =>
    exact congrArg Json.arr (Schema.eq_map_str_of_forall₂ (Schema.forall₂_of_listOf hlist))
  | _ => exact absurd hlist (Schema.fault_ne_ok _ _)

theorem Relationship.shown_of_decode {r : Relationship}
    (h : Relationship.decode (.obj fields) = .ok r) : r.Shown fields := by
  simp only [Relationship.decode, Schema.record, Schema.Decoded.ap_eq_ok_iff, Except.ok.injEq,
    ↓existsAndEq, true_and, exists_and_left, and_assoc] at h
  obtain ⟨id, hid, _, _, _, _, sources, hsources, targets, htargets, _, _, _, _, _, _, _, _, rfl⟩ :=
    h
  refine ⟨?_, ?_, ?_⟩
  · rw [member_eq_valueOf]
    exact (Schema.eq_str_of_formed (Schema.eq_ok_of_required hid)).1
  · rw [field_eq_valueOf]
    exact ofStrings_of_someOf (Schema.eq_ok_of_required hsources)
  · rw [field_eq_valueOf]
    exact ofStrings_of_someOf (Schema.eq_ok_of_required htargets)

theorem PathStep.shown_of_decode {s : PathStep} (h : PathStep.decode (.obj fields) = .ok s) :
    member fields "relationship" = .str s.relationship := by
  simp only [PathStep.decode, Schema.record, Schema.Decoded.ap_eq_ok_iff, Except.ok.injEq,
    ↓existsAndEq, true_and, exists_and_left, and_assoc] at h
  obtain ⟨relationship, hrelationship, _, _, rfl⟩ := h
  rw [member_eq_valueOf]
  exact Schema.eq_str_of_nonEmpty (Schema.eq_ok_of_required hrelationship)

/-- What the fields of a derivation show of it. -/
structure Derivation.Shown (fields : Fields) (d : Derivation) : Prop where
  kind : member fields "kind" = .str d.kind.word
  derived : field fields "derivedRelationship" "derived_relationship" = .ofString? d.derived
  via : Holds PathStep.decode (member fields "via") d.via
  targetTypes : field fields "targetTypes" "target_types" = stringsOrNull d.targetTypes
  matchProperty : field fields "matchProperty" "match_property" = .ofString? d.matchProperty
  attributes : (member fields "attributes").isTruthy = true ↔ d.attributes ≠ .empty

theorem isTruthy_of_anyTable {v : Json} {t : Table Json} (h : Schema.anyTable v = .ok t) :
    v.isTruthy = true ↔ t ≠ .empty := by
  cases v with
  | obj entries =>
    obtain rfl : Table.ofEntries entries = t := Except.ok.inj h
    rw [ne_eq, Table.ofEntries_eq_empty_iff]
    simp [Json.isTruthy]
  | _ => exact absurd h (Schema.fault_ne_ok _ _)

theorem Derivation.shown_of_decode {d : Derivation} (h : Derivation.decode (.obj fields) = .ok d) :
    d.Shown fields := by
  simp only [Derivation.decode, Schema.record, Schema.Decoded.ap_eq_ok_iff, Except.ok.injEq,
    ↓existsAndEq, true_and, exists_and_left, and_assoc] at h
  obtain ⟨kind, hkind, derived, hderived, via, hvia, targets, htargets, key, hkey, attributes,
    hattributes, _, _, _, _, rfl⟩ := h
  refine ⟨?_, ?_, ?_, ?_, ?_, ?_⟩
  · rw [member_eq_valueOf]
    exact Schema.eq_str_of_oneOf DerivationKind.words_word (Schema.eq_ok_of_required hkind)
  · rw [field_eq_valueOf]
    exact Schema.eq_ofString?_of_nullable (Schema.eq_ok_of_optional_nullable hderived)
  · rw [member_eq_valueOf]
    exact holds_of_items Schema.exists_obj_of_record (Schema.forall₂_of_optional_listOf hvia)
  · rw [field_eq_valueOf]
    exact stringsOrNull_of_nullable (Schema.eq_ok_of_optional_nullable htargets)
  · rw [field_eq_valueOf]
    exact Schema.eq_ofString?_of_nullable (Schema.eq_ok_of_optional_nullable hkey)
  · rw [member_eq_valueOf]
    rcases Schema.cases_of_optional hattributes with hread | ⟨hnull, rfl⟩
    · exact isTruthy_of_anyTable hread
    · simp [hnull, Json.isTruthy]

/-- What the fields of a mapping show of it. -/
structure Mapping.Shown (fields : Fields) (m : Mapping) : Prop where
  id : member fields "id" = .str m.id
  sourceType : field fields "sourceType" "source_type" = .ofString? m.sourceType
  ontologyClass : field fields "ontologyClass" "ontology_class" = .ofString? m.ontologyClass
  rule : ∃ rule, member fields "rule" = .obj rule ∧ m.rule.Shown rule

theorem Mapping.shown_of_decode {m : Mapping} (h : Mapping.decode (.obj fields) = .ok m) :
    m.Shown fields := by
  simp only [Mapping.decode, Schema.record, Schema.Decoded.ap_eq_ok_iff, Except.ok.injEq,
    ↓existsAndEq, true_and, exists_and_left, and_assoc] at h
  obtain ⟨id, hid, type, htype, cls, hcls, _, _, _, _, rule, hrule, rfl⟩ := h
  refine ⟨?_, ?_, ?_, ?_⟩
  · rw [member_eq_valueOf]
    exact (Schema.eq_str_of_formed (Schema.eq_ok_of_required hid)).1
  · rw [field_eq_valueOf]
    exact Schema.eq_ofString?_of_nullable (Schema.eq_ok_of_optional_nullable htype)
  · rw [field_eq_valueOf]
    exact Schema.eq_ofString?_of_nullable (Schema.eq_ok_of_optional_nullable hcls)
  · have hread := Schema.eq_ok_of_required hrule
    obtain ⟨inner, hinner⟩ := Schema.exists_obj_of_record hread
    rw [hinner] at hread
    rw [member_eq_valueOf]
    exact ⟨inner, hinner, Derivation.shown_of_decode hread⟩

/-- What the fields of a preset show of it. -/
structure Preset.Shown (fields : Fields) (p : Preset) : Prop where
  nodeTypes : Holds NodeType.decode (field fields "nodeTypes" "node_types") p.nodeTypes
  relationships : Holds Relationship.decode (member fields "relationships") p.relationships
  mappings : Holds Mapping.decode (field fields "ontologyMappings" "ontology_mappings") p.mappings
  version : member fields "version" = .str p.version
  versionForm : Text.isVersionForm Text.isLaterDigit p.version.toList = true

theorem Preset.shown_of_decode {p : Preset} (h : Preset.decode (.obj fields) = .ok p) :
    p.Shown fields := by
  simp only [Preset.decode, Schema.record, Schema.Decoded.ap_eq_ok_iff, Except.ok.injEq,
    ↓existsAndEq, true_and, exists_and_left, and_assoc] at h
  obtain ⟨_, _, _, _, version, hversion, _, _, _, _, types, htypes, relationships, hrelationships,
    _, _, _, _, mappings, hmappings, rfl⟩ := h
  obtain ⟨htext, hform⟩ := Schema.eq_str_of_formed (Schema.eq_ok_of_required hversion)
  refine ⟨?_, ?_, ?_, ?_, hform⟩
  · rw [field_eq_valueOf]
    exact holds_of_items Schema.exists_obj_of_record
      (Schema.forall₂_of_someOf (Schema.eq_ok_of_required htypes))
  · rw [member_eq_valueOf]
    exact holds_of_items Schema.exists_obj_of_record
      (Schema.forall₂_of_optional_listOf hrelationships)
  · rw [field_eq_valueOf]
    exact holds_of_items Schema.exists_obj_of_record (Schema.forall₂_of_optional_listOf hmappings)
  · rw [member_eq_valueOf]
    exact htext

end GraphWorkbench

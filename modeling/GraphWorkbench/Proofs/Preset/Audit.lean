import GraphWorkbench.Proofs.Outcome
import GraphWorkbench.Proofs.Preset.Reading
import GraphWorkbench.Proofs.Preset.WellFormed
/-!
What validation comes to. Each search for what is wrong between fields finds nothing exactly when
the part of the preset that it looks at is well formed; a candidate is accepted exactly when it can
be read, is well formed, and its version passes the guard.
-/
namespace GraphWorkbench.Audit

open Outcome
open Schema (Fields Step)

section Lists

variable {α β γ : Type} {place : List Step} {what : String} {es : List (Nat × Fields)}

theorem collect_eq_nil_iff {f : α → Except Fault (List Violation)} {as : List α} :
    collect f as = .ok [] ↔ ∀ a ∈ as, f a = .ok [] := by
  induction as with
  | nil => simp [collect]
  | cons a rest ih =>
    rw [List.forall_mem_cons, ← ih, collect]
    constructor
    · intro h
      obtain ⟨here, hhere, h⟩ := bind_eq_ok.mp h
      obtain ⟨others, hothers, h⟩ := bind_eq_ok.mp h
      obtain ⟨rfl, rfl⟩ := List.append_eq_nil_iff.mp (Except.ok.inj h)
      exact ⟨hhere, hothers⟩
    · rintro ⟨hhere, hothers⟩
      rw [hhere, hothers]
      rfl

/-- A search that finds whatever fails a test finds nothing when all pass it. -/
theorem found_eq_nil_iff {P : β → Prop} [DecidablePred P] {es : List (Nat × β)}
    {found : Nat × β → γ} {bs : List β} (h : es.map Prod.snd = bs) :
    (es.filterMap fun e => if P e.2 then none else some (found e)) = [] ↔ ∀ b ∈ bs, P b := by
  rw [List.filterMap_eq_nil_iff, ← h, List.forall_mem_map]
  constructor
  · intro hnone e he
    by_contra hfails
    have hsome := hnone e he
    simp [hfails] at hsome
  · intro hpasses e he
    exact if_pos (hpasses e he)

/-- No id is found twice when the ids differ from each other and from those seen before. -/
theorem duplicates_eq_nil_iff {seen : List String} :
    duplicates place what seen es = [] ↔ (ids es).Nodup ∧ ∀ id ∈ ids es, id ∉ seen := by
  -- along the list the ids that were met are added to those seen before
  induction es generalizing seen with
  | nil => simp [duplicates, ids]
  | cons e rest ih =>
    obtain ⟨i, fields⟩ := e
    cases hid : member fields "id" with
    | str id =>
      have hids : ids ((i, fields) :: rest) = id :: ids rest := by simp [ids, hid, Json.str?]
      rw [hids, List.nodup_cons, List.forall_mem_cons, duplicates]
      simp only [hid]
      split
      next hseen =>
        have hmem : id ∈ seen := by simpa using hseen
        simp [hmem]
      next hseen =>
        have hmem : id ∉ seen := by simpa using hseen
        rw [ih]
        constructor
        · rintro ⟨hnodup, hnew⟩
          have hother : id ∉ ids rest := fun h => hnew id h (List.mem_cons_self ..)
          exact ⟨⟨hother, hnodup⟩, hmem, fun a ha hs => hnew a ha (List.mem_cons_of_mem _ hs)⟩
        · rintro ⟨⟨hother, hnodup⟩, _, hnew⟩
          refine ⟨hnodup, fun a ha hs => ?_⟩
          rcases List.mem_cons.mp hs with rfl | hs
          · exact hother ha
          · exact hnew a ha hs
    | _ =>
      -- an object whose id is no text is passed over, and has no id to collect either
      have hids : ids ((i, fields) :: rest) = ids rest := by simp [ids, hid, Json.str?]
      rw [hids, ← ih, duplicates]
      simp only [hid]

theorem duplicates_start_eq_nil_iff : duplicates place what [] es = [] ↔ (ids es).Nodup := by
  simp [duplicates_eq_nil_iff]

end Lists

/-- The names that the parts of a preset may use. -/
def namesOf (p : Preset) : Names := ⟨p.typeIds, p.relationshipIds, p.classes⟩

section Parts

variable {p : Preset} {place : List Step} {i : Nat} {fields : Fields}

theorem propertyFindings_eq_nil_iff {q : Property} (h : q.Shown fields) :
    propertyFindings place (i, fields) = .ok [] ↔ q.WellFormed := by
  have hoptions : (member fields "options").isTruthy = true ↔ q.options.getD [] ≠ [] := by
    rw [h.options]
    cases q.options with
    | none => simp [stringsOrNull, Json.isTruthy]
    | some options => simp [stringsOrNull, Json.ofStrings, Json.isTruthy]
  have hchooses : among (member fields "type") ["enum", "multiselect"] =
      .ok (decide (q.kind = .choice ∨ q.kind = .choices)) := by
    rcases h.kind with hkind | ⟨hkind, htext⟩
    · rw [hkind]
      cases q.kind <;> decide
    · rw [hkind, htext]
      decide
  unfold propertyFindings Property.WellFormed
  simp only [hchooses, ok_bind, decide_eq_true_eq]
  by_cases hkind : q.kind = .choice ∨ q.kind = .choices
  · simp only [hkind, if_true, forall_const, ← hoptions]
    split <;> simp_all [pure_eq_ok]
  · simp [hkind, pure_eq_ok]

theorem limitFindings_eq_nil_iff (place : List Step) (r : Rule) :
    limitFindings place (.str r.check.word) r.limit = .ok [] ↔ r.Usable := by
  unfold limitFindings Rule.Usable
  cases r.check with
  | pattern =>
    simp only [Check.word, if_true]
    cases hcompile : Pattern.compile r.limit.text with
    | ok pattern => simp [pure_eq_ok]
    | error problem => cases problem <;> simp [pure_eq_ok, throw, throwThe, MonadExceptOf.throw]
  | oneOf =>
    cases r.limit <;> simp [Check.word, among, ok_bind, pure_eq_ok]
  | _ =>
    cases r.limit <;> simp [Check.word, among, ok_bind, pure_eq_ok]

theorem ruleFindings_eq_nil_iff {r : Rule} {properties : List String} (h : r.Shown fields) :
    ruleFindings place properties (i, fields) = .ok [] ↔ r.property ∈ properties ∧ r.Usable := by
  have hlimit := limitFindings_eq_nil_iff
    (place ++ [.key "validationRules", .index i] ++ [.key "value"]) r
  rw [← hlimit]
  unfold ruleFindings
  simp only [h.property, h.check, h.limit]
  by_cases hdeclared : r.property ∈ properties
  · simp only [List.contains_iff_mem, hdeclared, if_true, true_and, List.nil_append]
    rw [bind_pure]
  · simp only [List.contains_iff_mem, hdeclared, if_false, false_and, iff_false]
    intro hnil
    obtain ⟨_, _, hnil⟩ := bind_eq_ok.mp hnil
    simp [pure_eq_ok] at hnil

theorem relationshipFindings_eq_nil_iff {r : Relationship} (h : r.Shown fields) :
    relationshipFindings (namesOf p) i fields = [] ↔ r.WellFormed p := by
  have hsources : (texts (field fields "sourceTypes" "source_types")).map Prod.snd =
      r.sourceTypes := by
    rw [h.sourceTypes]
    exact map_texts_stringsOrNull (some r.sourceTypes)
  have htargets : (texts (field fields "targetTypes" "target_types")).map Prod.snd =
      r.targetTypes := by
    rw [h.targetTypes]
    exact map_texts_stringsOrNull (some r.targetTypes)
  unfold relationshipFindings
  simp only [List.flatMap_cons, List.flatMap_nil, List.append_nil, List.append_eq_nil_iff,
    List.contains_iff_mem]
  constructor
  · rintro ⟨hs, ht⟩
    exact ⟨(found_eq_nil_iff hsources).mp hs, (found_eq_nil_iff htargets).mp ht⟩
  · rintro ⟨hs, ht⟩
    exact ⟨(found_eq_nil_iff hsources).mpr hs, (found_eq_nil_iff htargets).mpr ht⟩

theorem nodeTypeFindings_eq_nil_iff {t : NodeType} (h : t.Shown fields) :
    nodeTypeFindings (namesOf p) (i, fields) = .ok [] ↔ t.WellFormed p := by
  have hids : ids (objects (member fields "properties")) = t.propertyIds :=
    h.properties.ids_eq fun hread => (Property.shown_of_decode hread).id
  have htwice : ∀ {place},
      duplicates place "property" [] (objects (member fields "properties")) = [] ↔
        t.propertyIds.Nodup := by
    intro place
    rw [duplicates_start_eq_nil_iff, hids]
  have hoptions : ∀ {place},
      collect (propertyFindings place) (objects (member fields "properties")) = .ok [] ↔
        ∀ q ∈ t.properties, q.WellFormed := by
    intro place
    rw [collect_eq_nil_iff]
    exact h.properties.forall_iff fun hread =>
      propertyFindings_eq_nil_iff (Property.shown_of_decode hread)
  have hrules : ∀ {place},
      collect (ruleFindings place (ids (objects (member fields "properties"))))
        (objects (field fields "validationRules" "validation_rules")) = .ok [] ↔
        ∀ r ∈ t.rules, r.property ∈ t.propertyIds ∧ r.Usable := by
    intro place
    rw [collect_eq_nil_iff, hids]
    exact h.rules.forall_iff fun hread => ruleFindings_eq_nil_iff (Rule.shown_of_decode hread)
  have hincoming : (texts (field fields "incomingRelationships" "incoming_relationships")).map
      Prod.snd = t.incoming.getD [] := by
    rw [h.incoming, map_texts_stringsOrNull]
  have houtgoing : (texts (field fields "outgoingRelationships" "outgoing_relationships")).map
      Prod.snd = t.outgoing.getD [] := by
    rw [h.outgoing, map_texts_stringsOrNull]
  -- each of the five searches has its own condition, and the report joins them in order
  unfold nodeTypeFindings
  simp only [List.flatMap_cons, List.flatMap_nil, List.append_nil]
  constructor
  · intro hnil
    obtain ⟨options, hoptionsOk, hnil⟩ := bind_eq_ok.mp hnil
    obtain ⟨rules, hrulesOk, hnil⟩ := bind_eq_ok.mp hnil
    have hall := Except.ok.inj hnil
    simp only [List.append_eq_nil_iff, List.contains_iff_mem] at hall
    obtain ⟨⟨⟨htwiceNil, rfl⟩, rfl⟩, hin, hout⟩ := hall
    exact ⟨htwice.mp htwiceNil, hoptions.mp hoptionsOk, hrules.mp hrulesOk,
      (found_eq_nil_iff hincoming).mp hin, (found_eq_nil_iff houtgoing).mp hout⟩
  · intro hwell
    rw [htwice.mpr hwell.properties_unique, hoptions.mpr hwell.options, hrules.mpr hwell.rules]
    simp only [ok_bind, pure_eq_ok, Except.ok.injEq, List.append_eq_nil_iff, List.contains_iff_mem]
    exact ⟨⟨⟨trivial, trivial⟩, trivial⟩, (found_eq_nil_iff hincoming).mpr hwell.incoming,
      (found_eq_nil_iff houtgoing).mpr hwell.outgoing⟩

theorem sourceFindings_eq_nil_iff {m : Mapping} (h : m.Shown fields) :
    sourceFindings (namesOf p) place fields = [] ↔
      (m.sourceType = none ↔ m.ontologyClass ≠ none) ∧
      (∀ t, m.sourceType = some t → t ∈ p.typeIds) ∧
      ∀ c, m.ontologyClass = some c → c ∈ p.classes := by
  unfold sourceFindings
  simp only [h.sourceType, h.ontologyClass]
  cases m.sourceType with
  | none => cases m.ontologyClass <;> simp [Json.ofString?, Json.isNull, namesOf]
  | some t => cases m.ontologyClass <;> simp [Json.ofString?, Json.isNull, namesOf]

theorem derivationFindings_eq_nil_iff {d : Derivation} (h : d.Shown fields) :
    derivationFindings (namesOf p) place fields = .ok [] ↔ d.WellFormed p := by
  have hsteps : objects (member fields "via") = [] ↔ d.via = [] := h.via.objects_eq_nil_iff
  have hwalks : among (member fields "kind") ["neighbors", "path", "transitive"] =
      .ok (decide (d.kind = .neighbors ∨ d.kind = .path ∨ d.kind = .transitive)) := by
    rw [h.kind]
    cases d.kind <;> decide
  have htargets : (texts (field fields "targetTypes" "target_types")).map Prod.snd =
      d.targetTypes.getD [] := by
    rw [h.targetTypes, map_texts_stringsOrNull]
  unfold derivationFindings
  simp only [hwalks, ok_bind, pure_eq_ok, Except.ok.injEq, List.append_eq_nil_iff, and_assoc]
  rw [Derivation.wellFormed_iff]
  refine and_congr ?derived (and_congr ?derives (and_congr ?via (and_congr ?walks
    (and_congr ?compares ?targets))))
  case derived =>
    rw [h.derived]
    cases d.derived <;> simp [Json.ofString?, namesOf]
  case derives =>
    rw [h.derived]
    have hattributes := h.attributes
    cases d.derived <;> simp_all [Json.ofString?, Json.isNull]
  case via =>
    rw [List.filterMap_eq_nil_iff]
    refine h.via.forall_iff fun hread => ?_
    rw [PathStep.shown_of_decode hread]
    simp [namesOf]
  case walks =>
    simp [hsteps]
  case compares =>
    rw [h.kind, h.matchProperty]
    cases d.matchProperty <;> cases d.kind <;>
      simp [DerivationKind.word, Json.ofString?, Json.isTruthy]
  case targets =>
    simp only [List.contains_iff_mem]
    exact found_eq_nil_iff (P := p.NamesType) htargets

theorem mappingFindings_eq_nil_iff {m : Mapping} (h : m.Shown fields) :
    mappingFindings (namesOf p) (i, fields) = .ok [] ↔ m.WellFormed p := by
  obtain ⟨rule, hrule, hshown⟩ := h.rule
  unfold mappingFindings
  simp only [hrule]
  constructor
  · intro hnil
    obtain ⟨found, hfound, hnil⟩ := bind_eq_ok.mp hnil
    obtain ⟨hsource, rfl⟩ := List.append_eq_nil_iff.mp (Except.ok.inj hnil)
    obtain ⟨hone, htype, hclass⟩ := (sourceFindings_eq_nil_iff h).mp hsource
    exact ⟨hone, htype, hclass, (derivationFindings_eq_nil_iff hshown).mp hfound⟩
  · rintro ⟨hone, htype, hclass, hwell⟩
    rw [(derivationFindings_eq_nil_iff hshown).mpr hwell,
      (sourceFindings_eq_nil_iff h).mpr ⟨hone, htype, hclass⟩]
    rfl

theorem crossFindings_eq_nil_iff (h : p.Shown fields) :
    crossFindings fields = .ok [] ↔ p.WellFormed := by
  have htypeIds : ids (objects (field fields "nodeTypes" "node_types")) = p.typeIds :=
    h.nodeTypes.ids_eq fun hread => (NodeType.shown_of_decode hread).id
  have hrelationshipIds : ids (objects (member fields "relationships")) = p.relationshipIds :=
    h.relationships.ids_eq fun hread => (Relationship.shown_of_decode hread).id
  have hmappingIds : ids (objects (field fields "ontologyMappings" "ontology_mappings")) =
      p.mappings.map (·.id) :=
    h.mappings.ids_eq fun hread => (Mapping.shown_of_decode hread).id
  have hclasses : (objects (field fields "nodeTypes" "node_types")).filterMap
      (fun e => (field e.2 "ontologyClass" "ontology_class").str?) = p.classes := by
    apply h.nodeTypes.filterMap_eq
    intro i fields t hread
    rw [(NodeType.shown_of_decode hread).ontologyClass]
    cases t.ontologyClass <;> rfl
  have hends : (objects (member fields "relationships")).flatMap
      (fun e => relationshipFindings (namesOf p) e.1 e.2) = [] ↔
      ∀ r ∈ p.relationships, r.WellFormed p := by
    rw [List.flatMap_eq_nil_iff]
    exact h.relationships.forall_iff fun hread =>
      relationshipFindings_eq_nil_iff (Relationship.shown_of_decode hread)
  have htypes : collect (nodeTypeFindings (namesOf p))
      (objects (field fields "nodeTypes" "node_types")) = .ok [] ↔
      ∀ t ∈ p.nodeTypes, t.WellFormed p := by
    rw [collect_eq_nil_iff]
    exact h.nodeTypes.forall_iff fun hread =>
      nodeTypeFindings_eq_nil_iff (NodeType.shown_of_decode hread)
  have hmappings : collect (mappingFindings (namesOf p))
      (objects (field fields "ontologyMappings" "ontology_mappings")) = .ok [] ↔
      ∀ m ∈ p.mappings, m.WellFormed p := by
    rw [collect_eq_nil_iff]
    exact h.mappings.forall_iff fun hread =>
      mappingFindings_eq_nil_iff (Mapping.shown_of_decode hread)
  -- the names that the search collects are those of the preset
  have hnames : ({ types := p.typeIds, relationships := p.relationshipIds, classes := p.classes } :
      Names) = namesOf p := rfl
  unfold crossFindings
  simp only [htypeIds, hrelationshipIds, hclasses, hnames]
  constructor
  · intro hnil
    obtain ⟨types, htypesOk, hnil⟩ := bind_eq_ok.mp hnil
    obtain ⟨derivations, hderivationsOk, hnil⟩ := bind_eq_ok.mp hnil
    have hall := Except.ok.inj hnil
    simp only [List.append_eq_nil_iff, duplicates_start_eq_nil_iff, htypeIds, hrelationshipIds,
      hmappingIds] at hall
    obtain ⟨⟨⟨⟨⟨hnt, hnr⟩, hnm⟩, hendsNil⟩, rfl⟩, rfl⟩ := hall
    exact ⟨hnt, hnr, hnm, hends.mp hendsNil, htypes.mp htypesOk, hmappings.mp hderivationsOk⟩
  · intro hwell
    rw [htypes.mpr hwell.types, hmappings.mpr hwell.mappings]
    simp only [ok_bind, pure_eq_ok, Except.ok.injEq, List.append_eq_nil_iff,
      duplicates_start_eq_nil_iff, htypeIds, hrelationshipIds, hmappingIds]
    exact ⟨⟨⟨⟨⟨hwell.types_unique, hwell.relationships_unique⟩, hwell.mappings_unique⟩,
      hends.mpr hwell.relationships⟩, trivial⟩, trivial⟩

end Parts

section Version

open Text

variable {cs : List Char} {c : Char} {digit : Char → Bool}

/-- The parts between points hold the characters other than points. -/
theorem flatten_pointParts (cs : List Char) :
    (pointParts cs).flatten = cs.filter fun c => c ≠ '.' := by
  induction cs with
  | nil => rfl
  | cons c rest ih =>
    rw [pointParts]
    by_cases hc : c = '.'
    · simpa [hc] using ih
    · rw [if_neg hc, List.filter_cons_of_pos (by simpa using hc), ← ih]
      cases pointParts rest <;> simp

theorem isVersionForm_iff : isVersionForm digit cs = true ↔
    (pointParts cs).length = 3 ∧ (∀ part ∈ pointParts cs, part ≠ []) ∧
      ∀ c ∈ cs, c ≠ '.' → digit c = true := by
  have hdigits : (∀ part ∈ pointParts cs, ∀ c ∈ part, digit c = true) ↔
      ∀ c ∈ cs, c ≠ '.' → digit c = true := by
    rw [← List.forall_mem_flatten, flatten_pointParts]
    simp [List.mem_filter]
  rw [← hdigits, ← forall₂_and]
  simp [isVersionForm]

theorem fitsLine_version_iff (h : isVersionForm isLaterDigit cs = true) :
    fitsLine (isVersionForm isDigit) cs = true ↔
      ¬ ∃ c ∈ cs, isLaterDigit c = true ∧ isDigit c = false := by
  obtain ⟨hlength, hparts, hlater⟩ := isVersionForm_iff.mp h
  -- a line break at the end would be a character of the last number
  have hline : beforeLineEnd cs = cs := by
    unfold beforeLineEnd
    split
    next hlast =>
      have hmem : '\n' ∈ cs := List.mem_of_getLast? hlast
      exact absurd (hlater _ hmem (by decide)) (by decide +kernel)
    next => rfl
  rw [fitsLine, hline, Bool.or_self, isVersionForm_iff]
  constructor
  · rintro ⟨_, _, hdigits⟩ ⟨c, hc, hlaterDigit, hdigit⟩
    have hpoint : c ≠ '.' := by
      rintro rfl
      exact absurd hlaterDigit (by decide +kernel)
    rw [hdigits c hc hpoint] at hdigit
    exact absurd hdigit (by decide)
  · intro hnone
    refine ⟨hlength, hparts, fun c hc hpoint => ?_⟩
    by_contra hdigit
    exact hnone ⟨c, hc, hlater c hc hpoint, by simpa using hdigit⟩

/-- The version is the one in use; or it is written with a digit that only the later tables have,
which the guard cannot see. -/
theorem versionFindings_eq_nil_iff {p : Preset} {fields : Fields} (h : p.Shown fields) :
    versionFindings fields = [] ↔ p.version = currentVersion ∨
      ∃ c ∈ p.version.toList, isLaterDigit c = true ∧ isDigit c = false := by
  unfold versionFindings
  simp only [h.version, fitsLine_version_iff h.versionForm]
  by_cases hcurrent : p.version = currentVersion
  · simp [hcurrent]
  · simp [hcurrent]

end Version

section Acceptance

variable {fields : Fields} {candidate : Json} {p : Preset}

/-- A candidate is accepted when it can be read and no search finds anything. -/
theorem validate_obj_eq_ok_iff : validate (.obj fields) = .ok (.ok p) ↔
    Preset.decode (.obj fields) = .ok p ∧ crossFindings fields = .ok [] ∧
      versionFindings fields = [] := by
  unfold validate
  cases hdecode : Preset.decode (.obj fields) with
  | ok read =>
    constructor
    · intro h
      obtain ⟨cross, hcross, h⟩ := bind_eq_ok.mp h
      have hanswer : (if (cross ++ versionFindings fields).isEmpty then .ok read
          else .error (cross ++ versionFindings fields)) = Except.ok p := Except.ok.inj h
      by_cases hempty : (cross ++ versionFindings fields).isEmpty = true
      · rw [if_pos hempty, Except.ok.injEq] at hanswer
        have hnil := List.isEmpty_iff.mp hempty
        obtain ⟨rfl, hversion⟩ := List.append_eq_nil_iff.mp hnil
        exact ⟨congrArg Except.ok hanswer, hcross, hversion⟩
      · rw [if_neg hempty] at hanswer
        exact absurd hanswer (by simp)
    · rintro ⟨hread, hcross, hversion⟩
      obtain rfl : read = p := Except.ok.inj hread
      simp only [hcross, hversion]
      rfl
  | error issues =>
    constructor
    · intro h
      obtain ⟨cross, _, h⟩ := bind_eq_ok.mp h
      exact absurd (Except.ok.inj h) (by simp)
    · rintro ⟨hread, _⟩
      exact absurd hread (by simp)

/-- What is accepted is well formed. -/
theorem wellFormed_of_validate (h : validate candidate = .ok (.ok p)) : p.WellFormed := by
  cases candidate with
  | obj fields =>
    obtain ⟨hread, hcross, _⟩ := validate_obj_eq_ok_iff.mp h
    exact (crossFindings_eq_nil_iff (Preset.shown_of_decode hread)).mp hcross
  | _ => exact absurd (Except.ok.inj h) (by simp)

/-- An object is accepted as a preset exactly when it reads as that preset, the preset is well
formed, and the guard lets its version pass: the version is the one in use, or it is written with a
digit that is one by the later tables only. -/
theorem validate_iff_wellFormed (fields : Fields) (p : Preset) :
    validate (.obj fields) = .ok (.ok p) ↔
      Preset.decode (.obj fields) = .ok p ∧
      (p.version = currentVersion ∨
        ∃ c ∈ p.version.toList, Text.isLaterDigit c = true ∧ Text.isDigit c = false) ∧
      p.WellFormed := by
  rw [validate_obj_eq_ok_iff]
  constructor
  · rintro ⟨hread, hcross, hversion⟩
    have hshown := Preset.shown_of_decode hread
    exact ⟨hread, (versionFindings_eq_nil_iff hshown).mp hversion,
      (crossFindings_eq_nil_iff hshown).mp hcross⟩
  · rintro ⟨hread, hversion, hwell⟩
    have hshown := Preset.shown_of_decode hread
    exact ⟨hread, (crossFindings_eq_nil_iff hshown).mpr hwell,
      (versionFindings_eq_nil_iff hshown).mpr hversion⟩

/-- A version in the digits of a later script is accepted although it is not the one in use. -/
theorem validate_later_digits :
    let version := "𑽐.𑽐.𑽐"
    let candidate : Fields := [("id", .str "a"), ("name", .str "A"), ("version", .str version),
      ("nodeTypes", .arr [.obj [("id", .str "n"), ("name", .str "N"),
        ("style", .obj [("color", .str "#000000")])]])]
    let p : Preset :=
      { id := "a", name := "A", version := version,
        nodeTypes := [{ id := "n", name := "N", style := { color := "#000000" } }] }
    validate (.obj candidate) = .ok (.ok p) ∧ p.version ≠ currentVersion := by
  decide +kernel

end Acceptance

end GraphWorkbench.Audit

import GraphWorkbench.Preset.Format
import GraphWorkbench.Proofs.Schema.Writing
/-!
What is written of a preset is read again. Each record is written with all its fields, so it is read
back as soon as each of its fields is.
-/
namespace GraphWorkbench

open Schema (Rereads listOf)

section Choices

/-! Each choice stands under its word. -/

theorem PropertyKind.get?_words : ∀ k : PropertyKind, Entries.get? k.word words = some k := by
  rintro ⟨⟩ <;> rfl

theorem Check.get?_words : ∀ c : Check, Entries.get? c.word words = some c := by
  rintro ⟨⟩ <;> rfl

theorem Shape.get?_words : ∀ s : Shape, Entries.get? s.word words = some s := by
  rintro ⟨⟩ <;> rfl

theorem Multiplicity.get?_words : ∀ m : Multiplicity, Entries.get? m.word words = some m := by
  rintro ⟨⟩ <;> rfl

theorem Directionality.get?_words : ∀ d : Directionality, Entries.get? d.word words = some d := by
  rintro ⟨⟩ <;> rfl

theorem StrokeStyle.get?_words : ∀ s : StrokeStyle, Entries.get? s.word words = some s := by
  rintro ⟨⟩ <;> rfl

theorem Theme.get?_words : ∀ t : Theme, Entries.get? t.word words = some t := by
  rintro ⟨⟩ <;> rfl

theorem StepDirection.get?_words : ∀ d : StepDirection, Entries.get? d.word words = some d := by
  rintro ⟨⟩ <;> rfl

theorem DerivationKind.get?_words : ∀ k : DerivationKind, Entries.get? k.word words = some k := by
  rintro ⟨⟩ <;> rfl

theorem Severity.get?_words : ∀ s : Severity, Entries.get? s.word words = some s := by
  rintro ⟨⟩ <;> rfl

end Choices

section Fields

/-! The readers of single fields. -/

theorem rereads_id : Rereads idText .str := Rereads.formed

theorem rereads_color : Rereads colorText .str := Rereads.formed

theorem rereads_text? : Rereads (Schema.nullable Schema.string) .ofString? := by
  intro v o h
  cases o <;> rfl

theorem rereads_color? : Rereads (Schema.nullable colorText) .ofString? := by
  intro v o h
  have hread := rereads_color.nullable (fun _ => Json.noConfusion) h
  cases o <;> exact hread

theorem rereads_shape? : Rereads (Schema.nullable (Schema.oneOf Shape.words))
    fun o => .ofString? (o.map Shape.word) := by
  intro v o h
  have hread := (Rereads.oneOf Shape.get?_words).nullable (fun _ => Json.noConfusion) h
  cases o <;> exact hread

theorem rereads_texts : Rereads (listOf Schema.string) .ofStrings := Rereads.string.listOf

theorem rereads_texts? : Rereads (Schema.nullable (listOf Schema.string)) stringsOrNull := by
  intro v o h
  have hread := rereads_texts.nullable (fun _ => Json.noConfusion) h
  cases o <;> exact hread

theorem rereads_someTexts : Rereads (Schema.someOf Schema.string) .ofStrings :=
  rereads_texts.checked

theorem rereads_numberAbove {bound : Int} : Rereads (Schema.numberAbove bound) .float :=
  Rereads.number.checked

theorem rereads_natAbove {bound : Int} (h : 0 ≤ bound) :
    Rereads (natAbove bound) fun n => .int n := by
  refine Rereads.count fun n passes => ?_
  split at passes
  · exact nomatch passes
  · omega

theorem rereads_natFrom {least : Int} (h : 0 ≤ least) :
    Rereads (natFrom least) fun n => .int n := by
  refine Rereads.count fun n passes => ?_
  split at passes
  · exact nomatch passes
  · omega

theorem rereads_natBetween {least most : Int} (h : 0 ≤ least) :
    Rereads (natBetween least most) fun n => .int n := by
  refine Rereads.count fun n passes => ?_
  split at passes
  · exact nomatch passes
  · split at passes
    · exact nomatch passes
    · omega

end Fields

/-- Nothing more than an id and a name is asked of a property. -/
theorem Property.decode_toJson {q : Property} (hid : q.id ≠ "") (hname : q.name ≠ "") :
    decode q.toJson = .ok q := by
  obtain ⟨id, name, kind, required, options, default⟩ := q
  have hreadId : Schema.nonEmpty (.str id) = .ok id := Schema.nonEmpty_str_eq_ok_iff.mpr hid
  have hreadName : Schema.nonEmpty (.str name) = .ok name := Schema.nonEmpty_str_eq_ok_iff.mpr hname
  have hreadKind : Schema.oneOf PropertyKind.words (.str kind.word) = .ok kind := by
    simp only [Schema.oneOf, PropertyKind.get?_words]
  have hreadOptions : ∀ options : List String,
      listOf Schema.string (.arr (options.map .str)) = .ok options :=
    fun options => Schema.listOf_map_eq_ok fun _ _ => rfl
  cases options <;>
    simp [decode, toJson, Schema.record, Schema.required, Schema.optional, Schema.lookup,
      Entries.get?, hreadId, hreadName, hreadKind, hreadOptions, Schema.nullable, Json.ofStrings,
      Schema.boolean, Schema.anything]

theorem Property.rereads : Rereads Property.decode Property.toJson := by
  intro v q h
  obtain ⟨fields, rfl⟩ := Schema.exists_obj_of_record h
  simp only [Property.decode, Schema.record, Schema.Decoded.ap_eq_ok_iff, Except.ok.injEq,
    ↓existsAndEq, true_and, exists_and_left, and_assoc] at h
  obtain ⟨id, hid, name, hname, _, _, _, _, _, _, _, _, rfl⟩ := h
  have hid := Rereads.nonEmpty.required hid
  have hname := Rereads.nonEmpty.required hname
  exact Property.decode_toJson (Schema.nonEmpty_str_eq_ok_iff.mp hid)
    (Schema.nonEmpty_str_eq_ok_iff.mp hname)

theorem Rule.rereads : Rereads Rule.decode Rule.toJson := by
  intro v r h
  obtain ⟨fields, rfl⟩ := Schema.exists_obj_of_record h
  simp only [Rule.decode, Schema.record, Schema.Decoded.ap_eq_ok_iff, Except.ok.injEq,
    ↓existsAndEq, true_and, exists_and_left, and_assoc] at h
  obtain ⟨property, hproperty, check, hcheck, limit, _, message, hmessage, rfl⟩ := h
  have hproperty := Rereads.nonEmpty.required hproperty
  have hcheck := (Rereads.oneOf Check.get?_words).required hcheck
  have hmessage := rereads_text?.optional rfl hmessage
  simp [decode, toJson, Schema.record, Schema.required, Schema.optional, Schema.lookup,
    Entries.get?, hproperty, hcheck, hmessage, Schema.anything]

theorem NodeStyle.rereads : Rereads NodeStyle.decode NodeStyle.toJson := by
  intro v s h
  obtain ⟨fields, rfl⟩ := Schema.exists_obj_of_record h
  simp only [NodeStyle.decode, Schema.record, Schema.Decoded.ap_eq_ok_iff, Except.ok.injEq,
    ↓existsAndEq, true_and, exists_and_left, and_assoc] at h
  obtain ⟨color, hcolor, border, hborder, background, hbackground, icon, hicon, shape, hshape,
    rfl⟩ := h
  have hcolor := rereads_color.required hcolor
  have hborder := rereads_color?.optional rfl hborder
  have hbackground := rereads_color?.optional rfl hbackground
  have hicon := rereads_text?.optional rfl hicon
  have hshape := rereads_shape?.optional rfl hshape
  simp [decode, toJson, Schema.record, Schema.required, Schema.optional, Schema.lookup,
    Entries.get?, hcolor, hborder, hbackground, hicon, hshape]

theorem NodeType.rereads : Rereads NodeType.decode NodeType.toJson := by
  intro v t h
  obtain ⟨fields, rfl⟩ := Schema.exists_obj_of_record h
  simp only [NodeType.decode, Schema.record, Schema.Decoded.ap_eq_ok_iff, Except.ok.injEq,
    ↓existsAndEq, true_and, exists_and_left, and_assoc] at h
  obtain ⟨id, hid, name, hname, category, _, description, _, cls, hcls, properties, hproperties,
    rules, hrules, incoming, hincoming, outgoing, houtgoing, style, hstyle, rfl⟩ := h
  have hid := rereads_id.required hid
  have hname := Rereads.nonEmpty.required hname
  have hcls := rereads_text?.optional rfl hcls
  have hproperties := Property.rereads.listOf.optional rfl hproperties
  have hrules := Rule.rereads.listOf.optional rfl hrules
  have hincoming := rereads_texts?.optional rfl hincoming
  have houtgoing := rereads_texts?.optional rfl houtgoing
  have hstyle := NodeStyle.rereads.required hstyle
  simp [decode, toJson, Schema.record, Schema.required, Schema.optional, Schema.lookup,
    Entries.get?, hid, hname, hcls, hproperties, hrules, hincoming, houtgoing, hstyle,
    Schema.string]

theorem EdgeStyle.rereads : Rereads EdgeStyle.decode EdgeStyle.toJson := by
  intro v s h
  obtain ⟨fields, rfl⟩ := Schema.exists_obj_of_record h
  simp only [EdgeStyle.decode, Schema.record, Schema.Decoded.ap_eq_ok_iff, Except.ok.injEq,
    ↓existsAndEq, true_and, exists_and_left, and_assoc] at h
  obtain ⟨color, hcolor, width, hwidth, stroke, hstroke, animated, _, rfl⟩ := h
  have hcolor := rereads_color.optional (by decide) hcolor
  have hwidth := rereads_numberAbove.optional (by decide) hwidth
  have hstroke := (Rereads.oneOf StrokeStyle.get?_words).optional rfl hstroke
  simp [decode, toJson, Schema.record, Schema.optional, Schema.lookup, Entries.get?, hcolor,
    hwidth, hstroke, Schema.boolean]

/-- A relationship is read again, with any properties in place of its own that are read again. -/
theorem Relationship.rereads_with {v : Json} {r : Relationship} (h : Relationship.decode v = .ok r)
    {properties : List Property}
    (hproperties :
      listOf Property.decode (.arr (properties.map Property.toJson)) = .ok properties) :
    Relationship.decode { r with properties }.toJson = .ok { r with properties } := by
  obtain ⟨fields, rfl⟩ := Schema.exists_obj_of_record h
  simp only [Relationship.decode, Schema.record, Schema.Decoded.ap_eq_ok_iff, Except.ok.injEq,
    ↓existsAndEq, true_and, exists_and_left, and_assoc] at h
  obtain ⟨id, hid, name, hname, description, _, sources, hsources, targets, htargets, multiplicity,
    hmultiplicity, directionality, hdirectionality, style, hstyle, _, _, rfl⟩ := h
  have hid := rereads_id.required hid
  have hname := Rereads.nonEmpty.required hname
  have hsources := rereads_someTexts.required hsources
  have htargets := rereads_someTexts.required htargets
  have hmultiplicity := (Rereads.oneOf Multiplicity.get?_words).optional rfl hmultiplicity
  have hdirectionality := (Rereads.oneOf Directionality.get?_words).optional rfl hdirectionality
  have hstyle := EdgeStyle.rereads.optional (by decide) hstyle
  simp [decode, toJson, Schema.record, Schema.required, Schema.optional, Schema.lookup,
    Entries.get?, hid, hname, hsources, htargets, hmultiplicity, hdirectionality, hstyle,
    hproperties, Schema.string]

theorem Styling.rereads : Rereads Styling.decode Styling.toJson := by
  intro v s h
  obtain ⟨fields, rfl⟩ := Schema.exists_obj_of_record h
  simp only [Styling.decode, Schema.record, Schema.Decoded.ap_eq_ok_iff, Except.ok.injEq,
    ↓existsAndEq, true_and, exists_and_left, and_assoc] at h
  obtain ⟨theme, htheme, primary, hprimary, background, hbackground, grid, hgrid, font, _, rfl⟩ := h
  have htheme := (Rereads.oneOf Theme.get?_words).optional rfl htheme
  have hprimary := rereads_color.optional (by decide) hprimary
  have hbackground := rereads_color.optional (by decide) hbackground
  have hgrid := rereads_color.optional (by decide) hgrid
  simp [decode, toJson, Schema.record, Schema.optional, Schema.lookup, Entries.get?, htheme,
    hprimary, hbackground, hgrid, Schema.string]

theorem Behavior.rereads : Rereads Behavior.decode Behavior.toJson := by
  intro v b h
  obtain ⟨fields, rfl⟩ := Schema.exists_obj_of_record h
  simp only [Behavior.decode, Schema.record, Schema.Decoded.ap_eq_ok_iff, Except.ok.injEq,
    ↓existsAndEq, true_and, exists_and_left, and_assoc] at h
  obtain ⟨snap, _, grid, hgrid, history, hhistory, nodes, hnodes, edges, hedges, enable, _, passes,
    hpasses, rfl⟩ := h
  have hgrid := (rereads_natAbove (by decide)).optional rfl hgrid
  have hhistory := (rereads_natBetween (by decide)).optional rfl hhistory
  have hnodes := (rereads_natAbove (by decide)).optional rfl hnodes
  have hedges := (rereads_natAbove (by decide)).optional rfl hedges
  have hpasses := ((rereads_natFrom (by decide)).nullable fun _ => Json.noConfusion).optional rfl
    hpasses
  cases passes with
  | none =>
    simp only [Option.map_none, Option.getD_none] at hpasses
    simp [decode, toJson, Schema.record, Schema.optional, Schema.lookup, Entries.get?, hgrid,
      hhistory, hnodes, hedges, hpasses, Schema.boolean]
  | some passes =>
    simp only [Option.map_some, Option.getD_some] at hpasses
    simp [decode, toJson, Schema.record, Schema.optional, Schema.lookup, Entries.get?, hgrid,
      hhistory, hnodes, hedges, hpasses, Schema.boolean]

theorem PathStep.rereads : Rereads PathStep.decode PathStep.toJson := by
  intro v s h
  obtain ⟨fields, rfl⟩ := Schema.exists_obj_of_record h
  simp only [PathStep.decode, Schema.record, Schema.Decoded.ap_eq_ok_iff, Except.ok.injEq,
    ↓existsAndEq, true_and, exists_and_left, and_assoc] at h
  obtain ⟨relationship, hrelationship, direction, hdirection, rfl⟩ := h
  have hrelationship := Rereads.nonEmpty.required hrelationship
  have hdirection := (Rereads.oneOf StepDirection.get?_words).optional rfl hdirection
  simp [decode, toJson, Schema.record, Schema.required, Schema.optional, Schema.lookup,
    Entries.get?, hrelationship, hdirection]

theorem Derivation.rereads : Rereads Derivation.decode Derivation.toJson := by
  intro v d h
  obtain ⟨fields, rfl⟩ := Schema.exists_obj_of_record h
  simp only [Derivation.decode, Schema.record, Schema.Decoded.ap_eq_ok_iff, Except.ok.injEq,
    ↓existsAndEq, true_and, exists_and_left, and_assoc] at h
  obtain ⟨kind, hkind, derived, hderived, via, hvia, targets, htargets, key, hkey, attributes,
    hattributes, severity, hseverity, confidence, hconfidence, rfl⟩ := h
  have hkind := (Rereads.oneOf DerivationKind.get?_words).required hkind
  have hderived := rereads_text?.optional rfl hderived
  have hvia := PathStep.rereads.listOf.optional rfl hvia
  have htargets := rereads_texts?.optional rfl htargets
  have hkey := rereads_text?.optional rfl hkey
  have hattributes := Rereads.anyTable.optional rfl hattributes
  have hseverity := (Rereads.oneOf Severity.get?_words).optional rfl hseverity
  have hconfidence := (rereads_natBetween (by decide)).optional rfl hconfidence
  simp [decode, toJson, Schema.record, Schema.required, Schema.optional, Schema.lookup,
    Entries.get?, hkind, hderived, hvia, htargets, hkey, hattributes, hseverity, hconfidence]

theorem Mapping.rereads : Rereads Mapping.decode Mapping.toJson := by
  intro v m h
  obtain ⟨fields, rfl⟩ := Schema.exists_obj_of_record h
  simp only [Mapping.decode, Schema.record, Schema.Decoded.ap_eq_ok_iff, Except.ok.injEq,
    ↓existsAndEq, true_and, exists_and_left, and_assoc] at h
  obtain ⟨id, hid, type, htype, cls, hcls, priority, _, description, _, rule, hrule, rfl⟩ := h
  have hid := rereads_id.required hid
  have htype := rereads_text?.optional rfl htype
  have hcls := rereads_text?.optional rfl hcls
  have hrule := Derivation.rereads.required hrule
  simp [decode, toJson, Schema.record, Schema.required, Schema.optional, Schema.lookup,
    Entries.get?, hid, htype, hcls, hrule, Schema.integer, Schema.string]

/-- A preset is read again, with any relationships in place of its own that are read again. -/
theorem Preset.rereads_with {v : Json} {p : Preset} (h : Preset.decode v = .ok p)
    {relationships : List Relationship}
    (hrelationships : listOf Relationship.decode (.arr (relationships.map Relationship.toJson)) =
      .ok relationships) :
    Preset.decode { p with relationships }.toJson = .ok { p with relationships } := by
  obtain ⟨fields, rfl⟩ := Schema.exists_obj_of_record h
  simp only [Preset.decode, Schema.record, Schema.Decoded.ap_eq_ok_iff, Except.ok.injEq,
    ↓existsAndEq, true_and, exists_and_left, and_assoc] at h
  obtain ⟨id, hid, name, hname, version, hversion, description, _, author, hauthor, types, htypes,
    _, _, styling, hstyling, behavior, hbehavior, mappings, hmappings, rfl⟩ := h
  have hid := rereads_id.required hid
  have hname := Rereads.nonEmpty.required hname
  have hversion := Rereads.formed.required hversion
  have hauthor := rereads_text?.optional rfl hauthor
  have htypes : Schema.someOf NodeType.decode (.arr (types.map NodeType.toJson)) = .ok types :=
    NodeType.rereads.listOf.checked.required htypes
  have hstyling := Styling.rereads.optional (by decide) hstyling
  have hbehavior := Behavior.rereads.optional rfl hbehavior
  have hmappings := Mapping.rereads.listOf.optional rfl hmappings
  simp [decode, toJson, Schema.record, Schema.required, Schema.optional, Schema.lookup,
    Entries.get?, hid, hname, hversion, hauthor, htypes, hstyling, hbehavior, hmappings,
    hrelationships, Schema.string]

theorem Relationship.rereads : Rereads Relationship.decode Relationship.toJson := by
  intro v r h
  refine Relationship.rereads_with h ?_
  obtain ⟨fields, rfl⟩ := Schema.exists_obj_of_record h
  simp only [Relationship.decode, Schema.record, Schema.Decoded.ap_eq_ok_iff, Except.ok.injEq,
    ↓existsAndEq, true_and, exists_and_left, and_assoc] at h
  obtain ⟨_, _, _, _, _, _, _, _, _, _, _, _, _, _, _, _, properties, hproperties, rfl⟩ := h
  exact Property.rereads.listOf.optional rfl hproperties

theorem Preset.rereads : Rereads Preset.decode Preset.toJson := by
  intro v p h
  refine Preset.rereads_with h ?_
  obtain ⟨fields, rfl⟩ := Schema.exists_obj_of_record h
  simp only [Preset.decode, Schema.record, Schema.Decoded.ap_eq_ok_iff, Except.ok.injEq,
    ↓existsAndEq, true_and, exists_and_left, and_assoc] at h
  obtain ⟨_, _, _, _, _, _, _, _, _, _, _, _, relationships, hrelationships, _, _, _, _, _, _,
    rfl⟩ := h
  exact Relationship.rereads.listOf.optional rfl hrelationships

end GraphWorkbench

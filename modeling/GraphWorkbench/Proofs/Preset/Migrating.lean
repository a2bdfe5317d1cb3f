import Mathlib.Tactic.MkIffOfInductiveProp
import GraphWorkbench.Preset.Migration
import GraphWorkbench.Proofs.Outcome
import GraphWorkbench.Proofs.Place
/-!
When a migration comes to an answer. Only the step that gives properties their present shape can
fail, and it does where the kind of a property that is still in its old shape cannot be looked up.
The step before it leaves properties as they are, and the step after it never fails.
-/
namespace GraphWorkbench

namespace Migration

open Outcome
open Schema (Fields)

/-- The kind of a property that is still in its old shape can be looked up. -/
def PropertyConvertible (fields : Fields) : Prop :=
  Entries.has "key" fields = true → Audit.isKey (memberOr fields "type" (.str "string")) = true

/-- The properties of an element, or of one that is still to get some, can be brought to their
present shape. -/
def ElementConvertible (fields : Fields) : Prop :=
  ∀ q ∈ objectsOf (memberOr fields "properties" .null), PropertyConvertible q

/-- The relationships of a preset under the present name of the section or the former one. -/
def relationshipsOf (fields : Fields) : Json :=
  ((Entries.get? "relationships" fields).or (Entries.get? "relationshipTypes" fields)).getD .null

/-- All properties of a preset can be brought to their present shape. -/
@[mk_iff]
structure Convertible (fields : Fields) : Prop where
  nodeTypes : ∀ t ∈ objectsOf (memberOr fields "nodeTypes" .null), ElementConvertible t
  relationships : ∀ r ∈ objectsOf (relationshipsOf fields), ElementConvertible r

section Members

variable {fields : Fields} {name other old new : String} {value fallback : Json}

theorem memberOr_put :
    memberOr (Entries.put other value fields) name fallback =
      if name = other then value else memberOr fields name fallback := by
  unfold memberOr
  rw [Entries.get?_put]
  split <;> rfl

theorem memberOr_putNew_of_ne (h : name ≠ other) :
    memberOr (Entries.putNew other value fields) name fallback = memberOr fields name fallback := by
  unfold memberOr
  rw [Entries.get?_putNew, if_neg h]

theorem memberOr_erase_of_ne (h : name ≠ other) :
    memberOr (Entries.erase other fields) name fallback = memberOr fields name fallback := by
  unfold memberOr
  rw [Entries.get?_erase_of_ne h]

theorem get?_rename_of_ne (hold : other ≠ old) (hnew : other ≠ new) :
    Entries.get? other (rename old new fields) = Entries.get? other fields := by
  unfold rename
  split
  · rfl
  · rw [Entries.get?_putNew, if_neg hnew, Entries.get?_erase_of_ne hold]

theorem get?_rename (h : new ≠ old) :
    Entries.get? new (rename old new fields) =
      (Entries.get? new fields).or (Entries.get? old fields) := by
  unfold rename
  split
  next hold => rw [hold, Option.or_none]
  next v hold =>
    rw [Entries.get?_putNew, if_pos rfl, Entries.get?_erase_of_ne h, hold]
    cases Entries.get? new fields <;> rfl

end Members

section Renaming

variable {fields : Fields}

theorem answers_currentKind {kind : Json} :
    Answers (currentKind kind) ↔ Audit.isKey kind = true := by
  cases kind <;> simp [Answers, currentKind, Audit.isKey]

theorem answers_convertProperty :
    Answers (convertProperty fields) ↔ PropertyConvertible fields := by
  unfold convertProperty PropertyConvertible Entries.has
  cases Entries.get? "key" fields with
  | none => simp [Answers.ok]
  | some key =>
    simp only [Option.isSome_some, forall_const, ← answers_currentKind]
    exact Answers.bind_of_next fun kind => .ok _

theorem answers_convertProperties :
    Answers (convertProperties fields) ↔ ElementConvertible fields := by
  have hconvert : Answers ((objectsOf (memberOr fields "properties" .null)).mapM convertProperty) ↔
      ElementConvertible fields := by
    rw [Answers.mapM_iff]
    simp only [answers_convertProperty]
    rfl
  rw [← hconvert]
  exact Answers.bind_of_next fun converted => .ok _

theorem answers_mapObjects {f : Fields → Except Fault Fields} {v : Json} :
    Answers (mapObjects f v) ↔ ∀ o ∈ objectsOf v, Answers (f o) := by
  cases v with
  | arr items =>
    -- items that are no objects are passed on, and never fail
    refine (Answers.bind_of_next fun items => .ok _).trans (Answers.mapM_iff.trans ⟨?_, ?_⟩)
    · intro h o ho
      obtain ⟨item, hmem, hobj⟩ := List.mem_filterMap.mp ho
      have hitem := h item hmem
      cases item with
      | obj fields =>
        obtain rfl := Option.some.inj hobj
        exact (Answers.bind_of_next fun o' => .ok _).mp hitem
      | _ => exact absurd hobj (by simp [Json.obj?])
    · intro h item hmem
      cases item with
      | obj fields =>
        have hfields := h fields (List.mem_filterMap.mpr ⟨_, hmem, rfl⟩)
        exact (Answers.bind_of_next fun o' => .ok _).mpr hfields
      | _ => exact .ok _
  | _ => simp [mapObjects, objectsOf, pure_eq_ok, Answers.ok]

theorem answers_alter {f : Fields → Except Fault Fields} {name : String} :
    Answers (alter name (mapObjects f) fields) ↔
      ∀ o ∈ objectsOf (memberOr fields name .null), Answers (f o) := by
  unfold alter memberOr
  cases Entries.get? name fields with
  | none => simp [objectsOf, Answers.ok]
  | some v =>
    rw [Option.getD_some, ← answers_mapObjects]
    exact Answers.bind_of_next fun v' => .ok _

/-- What else a preset has is not touched when a member is changed. -/
theorem get?_of_alter {f : Json → Except Fault Json} {name other : String} {fields' : Fields}
    (h : alter name f fields = .ok fields') (hother : other ≠ name) :
    Entries.get? other fields' = Entries.get? other fields := by
  unfold alter at h
  split at h
  · rw [Except.ok.inj h]
  · obtain ⟨v', _, h⟩ := bind_eq_ok.mp h
    rw [← Except.ok.inj h, Entries.get?_put, if_neg hother]

/-- Moving the colour of a node type leaves its properties alone. -/
theorem properties_moveColor :
    memberOr (moveColor fields) "properties" .null = memberOr fields "properties" .null := by
  unfold moveColor
  rw [memberOr_erase_of_ne (by decide), memberOr_put, if_neg (by decide)]

theorem answers_renameFields : Answers (renameFields (.obj fields)) ↔ Convertible fields := by
  let renamed := rename "relationshipTypes" "relationships" (rename "label" "name" fields)
  have hnodeTypes : memberOr renamed "nodeTypes" .null = memberOr fields "nodeTypes" .null := by
    unfold memberOr
    rw [get?_rename_of_ne (by decide) (by decide), get?_rename_of_ne (by decide) (by decide)]
  have hrelationships : memberOr renamed "relationships" .null = relationshipsOf fields := by
    unfold memberOr relationshipsOf
    rw [get?_rename (by decide), get?_rename_of_ne (by decide) (by decide),
      get?_rename_of_ne (by decide) (by decide)]
  have htypes : Answers (alter "nodeTypes" (mapObjects fun t =>
      convertProperties (moveColor (rename "label" "name" t))) renamed) ↔
      ∀ t ∈ objectsOf (memberOr fields "nodeTypes" .null), ElementConvertible t := by
    rw [answers_alter, hnodeTypes]
    refine forall₂_congr fun t _ => ?_
    rw [answers_convertProperties]
    unfold ElementConvertible
    rw [properties_moveColor]
    unfold memberOr
    rw [get?_rename_of_ne (by decide) (by decide)]
  have hboth : Answers (renameFields (.obj fields)) ↔
      Answers (alter "nodeTypes" (mapObjects fun t =>
        convertProperties (moveColor (rename "label" "name" t))) renamed) ∧
      ∀ r ∈ objectsOf (relationshipsOf fields), ElementConvertible r := by
    -- the node types were changed by then, and the relationships were not
    refine Answers.bind_iff fun fields' halter => ?_
    have hkept : memberOr fields' "relationships" .null = relationshipsOf fields := by
      rw [← hrelationships]
      unfold memberOr
      rw [get?_of_alter halter (by decide)]
    rw [← hkept]
    refine (Answers.bind_of_next fun last => .ok _).trans (answers_alter.trans ?_)
    refine forall₂_congr fun r _ => ?_
    rw [answers_convertProperties]
    unfold ElementConvertible memberOr
    rw [get?_rename_of_ne (by decide) (by decide), get?_rename_of_ne (by decide) (by decide),
      get?_rename_of_ne (by decide) (by decide)]
  rw [hboth, htypes, convertible_iff]

end Renaming

section Filling

variable {fields fields' : Fields} {P : Fields → Prop} {f : Fields → Except Fault Fields}

/-- What a change keeps of each object holds of all objects when it did before. -/
theorem forall_objectsOf_mapObjects (keeps : ∀ {o o'}, f o = .ok o' → (P o' ↔ P o)) {v v' : Json}
    (h : mapObjects f v = .ok v') :
    (∀ o ∈ objectsOf v', P o) ↔ ∀ o ∈ objectsOf v, P o := by
  cases v with
  | arr items =>
    obtain ⟨items', hitems, hv'⟩ := bind_eq_ok.mp h
    obtain rfl := Except.ok.inj hv'
    clear h hv'
    simp only [objectsOf]
    -- on the items, which are changed one by one in their order
    induction items generalizing items' with
    | nil =>
      obtain rfl := Except.ok.inj hitems
      simp
    | cons item rest ih =>
      rw [List.mapM_cons] at hitems
      obtain ⟨item', hitem, hitems⟩ := bind_eq_ok.mp hitems
      obtain ⟨rest', hrest, hitems⟩ := bind_eq_ok.mp hitems
      obtain rfl := Except.ok.inj hitems
      have hothers := ih rest' hrest
      cases item with
      | obj o =>
        obtain ⟨o', ho', hitem⟩ := bind_eq_ok.mp hitem
        obtain rfl := Except.ok.inj hitem
        simp only [List.filterMap_cons, Json.obj?, List.forall_mem_cons, keeps ho', hothers]
      | _ =>
        obtain rfl := Except.ok.inj hitem
        simpa only [List.filterMap_cons, Json.obj?] using hothers
  | _ =>
    obtain rfl := Except.ok.inj h
    rfl

theorem forall_objectsOf_alter (keeps : ∀ {o o'}, f o = .ok o' → (P o' ↔ P o)) {name : String}
    (h : alter name (mapObjects f) fields = .ok fields') :
    (∀ o ∈ objectsOf (memberOr fields' name .null), P o) ↔
      ∀ o ∈ objectsOf (memberOr fields name .null), P o := by
  unfold alter at h
  split at h
  next => rw [Except.ok.inj h]
  next v hv =>
    obtain ⟨v', hv', h⟩ := bind_eq_ok.mp h
    rw [← Except.ok.inj h, memberOr_put, if_pos rfl, memberOr, hv, Option.getD_some]
    exact forall_objectsOf_mapObjects keeps hv'

/-- A list of properties that is written where there is none is empty. -/
theorem elementConvertible_putNew_properties :
    ElementConvertible (Entries.putNew "properties" (.arr []) fields) ↔
      ElementConvertible fields := by
  let filled := Entries.putNew "properties" (.arr []) fields
  have hsame : objectsOf (memberOr filled "properties" .null) =
      objectsOf (memberOr fields "properties" .null) := by
    unfold memberOr
    rw [Entries.get?_putNew, if_pos rfl]
    cases Entries.get? "properties" fields <;> rfl
  unfold ElementConvertible
  rw [hsame]

theorem elementConvertible_putNew {name : String} {value : Json} (h : name ≠ "properties") :
    ElementConvertible (Entries.putNew name value fields) ↔ ElementConvertible fields := by
  unfold ElementConvertible
  rw [memberOr_putNew_of_ne h.symm]

theorem elementConvertible_fillNodeType {t t' : Fields} (h : fillNodeType t = .ok t') :
    ElementConvertible t' ↔ ElementConvertible t := by
  rw [← Except.ok.inj h, elementConvertible_putNew (by decide),
    elementConvertible_putNew (by decide), elementConvertible_putNew_properties,
    elementConvertible_putNew (by decide)]

theorem elementConvertible_fillRelationship {r r' : Fields} (h : fillRelationship r = .ok r') :
    ElementConvertible r' ↔ ElementConvertible r := by
  rw [← Except.ok.inj h, elementConvertible_putNew_properties,
    elementConvertible_putNew (by decide), elementConvertible_putNew (by decide),
    elementConvertible_putNew (by decide)]

theorem convertible_put {name : String} {value : Json}
    (h : name ≠ "nodeTypes" ∧ name ≠ "relationships" ∧ name ≠ "relationshipTypes") :
    Convertible (Entries.put name value fields) ↔ Convertible fields := by
  obtain ⟨htypes, hpresent, hformer⟩ := h
  have hrelationships :
      relationshipsOf (Entries.put name value fields) = relationshipsOf fields := by
    unfold relationshipsOf
    rw [Entries.get?_put, if_neg hpresent.symm, Entries.get?_put, if_neg hformer.symm]
  rw [convertible_iff, convertible_iff, hrelationships, memberOr_put, if_neg htypes.symm]

theorem convertible_alter_nodeTypes
    (keeps : ∀ {t t'}, f t = .ok t' → (ElementConvertible t' ↔ ElementConvertible t))
    (h : alter "nodeTypes" (mapObjects f) fields = .ok fields') :
    Convertible fields' ↔ Convertible fields := by
  have hrelationships : relationshipsOf fields' = relationshipsOf fields := by
    unfold relationshipsOf
    rw [get?_of_alter h (by decide), get?_of_alter h (by decide)]
  rw [convertible_iff, convertible_iff, hrelationships, forall_objectsOf_alter keeps h]

/-- The relationships are changed under the former name of their section if it is there. This leaves
those under the present name as they are, which count more. -/
theorem convertible_alter_relationships
    (keeps : ∀ {r r'}, f r = .ok r' → (ElementConvertible r' ↔ ElementConvertible r))
    (h : alter (if Entries.has "relationshipTypes" fields then "relationshipTypes"
      else "relationships") (mapObjects f) fields = .ok fields') :
    Convertible fields' ↔ Convertible fields := by
  have hobjects := forall_objectsOf_alter keeps h
  cases hformer : Entries.get? "relationshipTypes" fields with
  | none =>
    have hhas : ¬ Entries.has "relationshipTypes" fields = true := by simp [Entries.has, hformer]
    rw [if_neg hhas] at h hobjects
    have hfields : relationshipsOf fields = memberOr fields "relationships" .null := by
      rw [relationshipsOf, hformer, Option.or_none, memberOr]
    have hformer' : Entries.get? "relationshipTypes" fields' = none :=
      (get?_of_alter h (by decide)).trans hformer
    have hfields' : relationshipsOf fields' = memberOr fields' "relationships" .null := by
      rw [relationshipsOf, hformer', Option.or_none, memberOr]
    have htypes : memberOr fields' "nodeTypes" .null = memberOr fields "nodeTypes" .null := by
      rw [memberOr, get?_of_alter h (by decide), memberOr]
    rw [convertible_iff, convertible_iff, hfields, hfields', hobjects, htypes]
  | some former =>
    have hhas : Entries.has "relationshipTypes" fields = true := by simp [Entries.has, hformer]
    rw [if_pos hhas] at h hobjects
    have htypes : memberOr fields' "nodeTypes" .null = memberOr fields "nodeTypes" .null := by
      rw [memberOr, get?_of_alter h (by decide), memberOr]
    have hpresent : Entries.get? "relationships" fields' = Entries.get? "relationships" fields :=
      get?_of_alter h (by decide)
    have hrelationships : (∀ r ∈ objectsOf (relationshipsOf fields'), ElementConvertible r) ↔
        ∀ r ∈ objectsOf (relationshipsOf fields), ElementConvertible r := by
      unfold relationshipsOf
      rw [hpresent]
      cases Entries.get? "relationships" fields with
      | none => simpa only [Option.none_or, memberOr] using hobjects
      | some present => rfl
    rw [convertible_iff, convertible_iff, hrelationships, htypes]

/-- Filling in what was left out succeeds, and the properties stay as they are. -/
theorem fillDefaults_gives (fields : Fields) : Gives (fillDefaults (.obj fields)) fun v =>
    ∃ filled, v = .obj filled ∧ (Convertible filled ↔ Convertible fields) := by
  -- behaviour and styling are filled in first, which no property depends on
  obtain ⟨styled, hstyled, hfill⟩ : ∃ styled, (Convertible styled ↔ Convertible fields) ∧
      fillDefaults (.obj fields) = (do
        let typed ← alter "nodeTypes" (mapObjects fillNodeType) styled
        return .obj (← alter (if Entries.has "relationshipTypes" typed then "relationshipTypes"
          else "relationships") (mapObjects fillRelationship) typed)) := by
    refine ⟨?styled, ?same, ?filled⟩
    case filled => rfl
    case same =>
      split
      · rw [convertible_put (by decide)]
      · rw [convertible_put (by decide), convertible_put (by decide)]
  rw [hfill]
  have htypes : Answers (alter "nodeTypes" (mapObjects fillNodeType) styled) :=
    answers_alter.mpr fun _ _ => .ok _
  obtain ⟨typed, htyped⟩ := htypes
  have hrelationships : Answers (alter (if Entries.has "relationshipTypes" typed then
      "relationshipTypes" else "relationships") (mapObjects fillRelationship) typed) :=
    answers_alter.mpr fun _ _ => .ok _
  obtain ⟨filled, hfilled⟩ := hrelationships
  refine ⟨.obj filled, ?_, filled, rfl, ?_⟩
  · simp only [htyped, ok_bind, hfilled, pure_eq_ok]
  · calc Convertible filled
      _ ↔ Convertible typed :=
          convertible_alter_relationships elementConvertible_fillRelationship hfilled
      _ ↔ Convertible styled := convertible_alter_nodeTypes elementConvertible_fillNodeType htyped
      _ ↔ Convertible fields := hstyled

end Filling

section Chain

variable {fields : Fields} {version : String}

theorem exists_obj_of_renameFields {v : Json} (h : renameFields (.obj fields) = .ok v) :
    ∃ renamed, v = .obj renamed := by
  obtain ⟨typed, _, h⟩ := bind_eq_ok.mp h
  obtain ⟨renamed, _, h⟩ := bind_eq_ok.mp h
  exact ⟨renamed, (Except.ok.inj h).symm⟩

/-- The steps to the current format from each version that has them. -/
theorem stepsBetween_current : stepsBetween (.str version) (.str currentVersion) =
    if version = "0.9.0" then .ok chain
    else if version = "1.0.0" then .ok (chain.drop 1)
    else if version = "1.1.0" then .ok (chain.drop 2)
    else if version = currentVersion then .ok []
    else .error (.unsupported (.str version)) := by
  have hplace : place? (.str version) = supported.findIdx? (· == version) := rfl
  have hsupported : supported = ["0.9.0", "1.0.0", "1.1.0", currentVersion] := rfl
  have hcurrent : place? (.str currentVersion) = some 3 := by decide
  unfold stepsBetween
  rw [hplace, hsupported, hcurrent]
  simp only [List.findIdx?_cons, List.findIdx?_nil, beq_iff_eq, eq_comm (b := version)]
  by_cases hfirst : version = "0.9.0"
  · simp [hfirst, chain]
  by_cases hsecond : version = "1.0.0"
  · simp [hsecond, chain]
  by_cases hthird : version = "1.1.0"
  · simp [hthird, chain]
  by_cases hlast : version = currentVersion
  · simp [hlast, chain, currentVersion]
  · simp [hfirst, hsecond, hthird, hlast]

/-- What starts as an object ends as one. -/
theorem exists_obj_of_runSteps {steps : List ChainStep} {v : Json}
    (h : runSteps steps (.obj fields) = .ok v) : ∃ migrated, v = .obj migrated := by
  induction steps generalizing fields with
  | nil => exact ⟨fields, (Except.ok.inj h).symm⟩
  | cons s rest ih =>
    obtain ⟨w, _, h⟩ := bind_eq_ok.mp h
    obtain ⟨stamped, hstamped, h⟩ := bind_eq_ok.mp h
    cases w with
    | obj after =>
      obtain rfl := Except.ok.inj hstamped
      exact ih h
    | _ => exact nomatch hstamped

/-- The last step never fails. -/
theorem answers_lift : Answers (runSteps (chain.drop 2) (.obj fields)) := ⟨_, rfl⟩

theorem answers_renameOn :
    Answers (runSteps (chain.drop 1) (.obj fields)) ↔ Convertible fields := by
  have hlast : ∀ v, renameFields (.obj fields) = .ok v →
      Answers (stamp "1.1.0" v >>= runSteps (chain.drop 2)) := by
    intro v hv
    obtain ⟨renamed, rfl⟩ := exists_obj_of_renameFields hv
    exact answers_lift
  have hrun : Answers (runSteps (chain.drop 1) (.obj fields)) ↔
      Answers (renameFields (.obj fields)) ∧ True :=
    Answers.bind_iff fun v hv => iff_true_intro (hlast v hv)
  rw [hrun, and_true, answers_renameFields]

theorem answers_fillOn : Answers (runSteps chain (.obj fields)) ↔ Convertible fields := by
  obtain ⟨v, hfill, filled, rfl, hsame⟩ := fillDefaults_gives fields
  have hrun : runSteps chain (.obj fields) =
      runSteps (chain.drop 1) (.obj (Entries.put "version" (.str "1.0.0") filled)) := by
    change (fillDefaults (.obj fields) >>= _) = _
    rw [hfill]
    rfl
  rw [hrun, answers_renameOn, convertible_put (by decide), hsame]

/-- A preset is brought to the current format, or told that its version has no way there, unless it
has one of the first two formats and a property that cannot be brought to its present shape. -/
theorem answers_migrateRaw :
    Answers (migrateRaw (.obj fields) (.str version) (.str currentVersion)) ↔
      (version = "0.9.0" ∨ version = "1.0.0" → Convertible fields) := by
  have hrun : ∀ steps, Answers (do return Except.ok (← runSteps steps (.obj fields)) :
      Except Fault (Except Refusal Json)) ↔ Answers (runSteps steps (.obj fields)) :=
    fun steps => Answers.bind_of_next fun v => .ok _
  unfold migrateRaw
  rw [stepsBetween_current]
  by_cases hfirst : version = "0.9.0"
  · rw [if_pos hfirst]
    simp only [hfirst, true_or, forall_const]
    exact (hrun _).trans answers_fillOn
  rw [if_neg hfirst]
  by_cases hsecond : version = "1.0.0"
  · rw [if_pos hsecond]
    simp only [hsecond, or_true, forall_const]
    exact (hrun _).trans answers_renameOn
  rw [if_neg hsecond]
  -- from here on nothing can fail
  refine iff_of_true ?_ fun hearly => absurd hearly (by simp [hfirst, hsecond])
  by_cases hthird : version = "1.1.0"
  · rw [if_pos hthird]
    exact (hrun _).mpr answers_lift
  rw [if_neg hthird]
  by_cases hlast : version = currentVersion
  · rw [if_pos hlast]
    exact .ok _
  · rw [if_neg hlast]
    exact .ok _

end Chain

end Migration

end GraphWorkbench

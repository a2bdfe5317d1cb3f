import GraphWorkbench.Proofs.Preset.Audit
import GraphWorkbench.Proofs.Preset.Chain
/-!
What relationships of the first format leave out. The first step fills it in with the defaults of that
format, so that those of the current format have no say in it. Where a preset has a section of
relationships under the former name and one under the present name, this goes amiss: the first step
fills in the one, and the second step keeps the other.
-/
namespace GraphWorkbench

universe u

theorem Entries.get?_fill {α : Type u} {name : String} {defaults entries : List (String × α)} :
    get? name (fill defaults entries) = (get? name entries).or (get? name defaults) := by
  unfold fill
  induction defaults generalizing entries with
  | nil => exact Option.or_none.symm
  | cons e rest ih =>
    obtain ⟨k, v⟩ := e
    rw [List.foldl_cons, ih, get?_putNew, get?]
    by_cases hkey : name = k
    · rw [if_pos hkey, if_pos hkey.symm, hkey]
      cases get? k entries <;> rfl
    · rw [if_neg hkey, if_neg (Ne.symm hkey)]

namespace Migration

open Outcome
open Schema (Fields)

section Objects

variable {f : Fields → Except Fault Fields} {fields fields' : Fields} {name : String} {v v' : Json}

/-- The objects of a list are changed one by one. -/
theorem forall₂_mapObjects (h : mapObjects f v = .ok v') :
    List.Forall₂ (fun o o' => f o = .ok o') (objectsOf v) (objectsOf v') := by
  cases v with
  | arr items =>
    obtain ⟨items', hitems, hv'⟩ := bind_eq_ok.mp h
    obtain rfl := Except.ok.inj hv'
    clear h hv'
    induction items generalizing items' with
    | nil =>
      obtain rfl := Except.ok.inj hitems
      exact .nil
    | cons item rest ih =>
      rw [List.mapM_cons] at hitems
      obtain ⟨item', hitem, hitems⟩ := bind_eq_ok.mp hitems
      obtain ⟨rest', hrest, hitems⟩ := bind_eq_ok.mp hitems
      obtain rfl := Except.ok.inj hitems
      have hothers := ih rest' hrest
      cases item with
      | obj o =>
        obtain ⟨o', ho', hitem⟩ := bind_eq_ok.mp hitem
        obtain rfl := Except.ok.inj hitem
        exact .cons ho' hothers
      | _ =>
        obtain rfl := Except.ok.inj hitem
        exact hothers
  | _ =>
    obtain rfl := Except.ok.inj h
    exact .nil

theorem forall₂_alter (h : alter name (mapObjects f) fields = .ok fields') :
    List.Forall₂ (fun o o' => f o = .ok o') (objectsOf (memberOr fields name .null))
      (objectsOf (memberOr fields' name .null)) := by
  unfold alter at h
  unfold memberOr
  cases hget : Entries.get? name fields with
  | none =>
    rw [hget] at h
    rw [← Except.ok.inj h, hget]
    exact .nil
  | some v =>
    rw [hget] at h
    obtain ⟨v', hv', h⟩ := bind_eq_ok.mp h
    rw [← Except.ok.inj h, Entries.get?_put, if_pos rfl]
    exact forall₂_mapObjects hv'

/-- What every pair says of its second member holds along the second list. -/
theorem forall_right {α β : Type} {P : β → Prop} {as : List α} {bs : List β}
    (h : List.Forall₂ (fun _ b => P b) as bs) : ∀ b ∈ bs, P b := by
  induction h with
  | nil => exact nofun
  | cons hb _ ih => exact List.forall_mem_cons.mpr ⟨hb, ih⟩

theorem forall₂_trans {α β γ : Type} {R : α → β → Prop} {S : β → γ → Prop} {T : α → γ → Prop}
    {as : List α} {bs : List β} {cs : List γ} (h : List.Forall₂ R as bs)
    (h' : List.Forall₂ S bs cs) (through : ∀ {a b c}, R a b → S b c → T a c) :
    List.Forall₂ T as cs := by
  induction h generalizing cs with
  | nil => cases h'; exact .nil
  | cons hab _ ih =>
    cases h' with
    | cons hbc hrest => exact .cons (through hab hbc) (ih hrest)

end Objects

/-- What a relationship of the first format had when it left something out. -/
def formerDefaults : Fields :=
  [("style", .obj [("strokeColor", .str "#3b82f6"), ("strokeWidth", .int 2)]),
    ("directionality", .str "directed"), ("multiplicity", .str "one-to-many"),
    ("properties", .arr [])]

/-- A preset has a section of relationships under the former name and one under the present name. -/
def inTwoSections (fields : Fields) : Bool :=
  Entries.has "relationshipTypes" fields && Entries.has "relationships" fields

/-- What is filled in for the relationships that a preset keeps. -/
def keptDefaults (fields : Fields) : Fields := if inTwoSections fields then [] else formerDefaults

section Filling

variable {fields filled : Fields} {name : String}

theorem get?_styled (hbehavior : name ≠ "behavior") (hstyling : name ≠ "styling") :
    Entries.get? name (fillStyling (fillBehavior fields)) = Entries.get? name fields := by
  rw [get?_fillStyling hstyling, fillBehavior, Entries.get?_put, if_neg hbehavior]

theorem forall₂_fillRelationship {rs rs' : List Fields}
    (h : List.Forall₂ (fun r r' => fillRelationship r = .ok r') rs rs') :
    rs' = rs.map (Entries.fill formerDefaults) := by
  induction h with
  | nil => rfl
  | cons hr _ ih =>
    obtain rfl := Except.ok.inj hr
    rw [ih]
    rfl

/-- Where there is one section of relationships, it is the one that is filled in. -/
theorem relationshipsOf_of_oneSection (h : inTwoSections fields = false) :
    relationshipsOf fields = memberOr fields (relationshipSection fields) .null := by
  unfold inTwoSections Entries.has at h
  unfold relationshipSection relationshipsOf memberOr Entries.has
  cases hformer : Entries.get? "relationshipTypes" fields with
  | none => exact congrArg (·.getD Json.null) Option.or_none
  | some former =>
    have hpresent : Entries.get? "relationships" fields = none := by simpa [hformer] using h
    rw [hpresent, Option.none_or, Option.isSome_some, if_pos rfl, hformer]

/-- Where there are two, the one under the former name is filled in, and the other one counts. -/
theorem relationshipsOf_of_twoSections (h : inTwoSections fields = true) :
    relationshipSection fields = "relationshipTypes" ∧
      relationshipsOf fields = memberOr fields "relationships" .null := by
  obtain ⟨hformer, hpresent⟩ := Bool.and_eq_true_iff.mp h
  obtain ⟨present, hpresent⟩ := Option.isSome_iff_exists.mp hpresent
  refine ⟨if_pos hformer, ?_⟩
  rw [relationshipsOf, memberOr, hpresent, Option.some_or]

/-- The relationships that count later are filled in, unless they stand beside a section under the
former name. -/
theorem relationshipsOf_filled (h : fillDefaults (.obj fields) = .ok (.obj filled)) :
    objectsOf (relationshipsOf filled) =
      (objectsOf (relationshipsOf fields)).map (Entries.fill (keptDefaults fields)) := by
  rw [fillDefaults_obj] at h
  obtain ⟨typed, htyped, h⟩ := bind_eq_ok.mp h
  obtain ⟨filled', hfilled, h⟩ := bind_eq_ok.mp h
  obtain rfl : filled' = filled := Json.obj.inj (Except.ok.inj h)
  -- before the relationships are filled in, both sections are as they were
  have hformer : Entries.get? "relationshipTypes" typed = Entries.get? "relationshipTypes" fields := by
    rw [get?_of_alter htyped (by decide), get?_styled (by decide) (by decide)]
  have hpresent : Entries.get? "relationships" typed = Entries.get? "relationships" fields := by
    rw [get?_of_alter htyped (by decide), get?_styled (by decide) (by decide)]
  have hgiven : relationshipsOf typed = relationshipsOf fields := by
    rw [relationshipsOf, hformer, hpresent, relationshipsOf]
  have hdefaults : keptDefaults typed = keptDefaults fields := by
    rw [keptDefaults, inTwoSections, Entries.has, Entries.has, hformer, hpresent]
    rfl
  rw [← hgiven, ← hdefaults]
  have htwo : inTwoSections filled' = inTwoSections typed := by
    simp only [inTwoSections, has_of_alter hfilled]
  have hsection : relationshipSection filled' = relationshipSection typed := by
    simp only [relationshipSection, has_of_alter hfilled]
  unfold keptDefaults
  cases hsections : inTwoSections typed with
  | false =>
    rw [relationshipsOf_of_oneSection (htwo.trans hsections), hsection,
      relationshipsOf_of_oneSection hsections]
    exact forall₂_fillRelationship (forall₂_alter hfilled)
  | true =>
    obtain ⟨hfills, hcounts⟩ := relationshipsOf_of_twoSections hsections
    rw [hfills] at hfilled
    have hkept : memberOr filled' "relationships" .null = memberOr typed "relationships" .null := by
      rw [memberOr, get?_of_alter hfilled (by decide), memberOr]
    rw [(relationshipsOf_of_twoSections (htwo.trans hsections)).2, hkept, hcounts]
    exact (List.map_id _).symm

end Filling

/-- The entries of a relationship that migration may fill in, but for its properties. -/
def omittable : List String := ["style", "directionality", "multiplicity"]

/-- A relationship in its present form says what it said before, and where it said nothing, what is
filled in for it. Its properties are in their present shape. -/
structure Restates (defaults r r' : Fields) : Prop where
  settings : ∀ name ∈ omittable,
    Entries.get? name r' = (Entries.get? name r).or (Entries.get? name defaults)
  properties : ∃ converted,
    (objectsOf (memberOr r "properties" .null)).mapM convertProperty = .ok converted ∧
      Entries.get? "properties" r' = some (.arr (converted.map .obj))

theorem Restates.explicit {r r' : Fields} (h : Restates formerDefaults r r') :
    ∀ name ∈ Entries.keys formerDefaults, Entries.has name r' = true := by
  obtain ⟨converted, _, hproperties⟩ := h.properties
  have hsaid : ∀ name ∈ omittable, Entries.has name r' = true := by
    intro name hname
    have hdefault : ∀ name ∈ omittable, Entries.has name formerDefaults = true := by decide
    rw [Entries.has, h.settings name hname, Option.isSome_or]
    exact Bool.or_eq_true_iff.mpr (.inr (hdefault name hname))
  have hkeys : ∀ name ∈ Entries.keys formerDefaults, name ∈ omittable ∨ name = "properties" := by
    decide
  intro name hname
  rcases hkeys name hname with hname | rfl
  · exact hsaid name hname
  · rw [Entries.has, hproperties]
    rfl

section Renaming

variable {fields renamed defaults r r' : Fields} {name : String}

theorem get?_of_reshapeRelationship (hname : name ∈ omittable)
    (h : reshapeRelationship r = .ok r') : Entries.get? name r' = Entries.get? name r := by
  have hapart : ∀ name ∈ omittable, name ≠ "properties" ∧ name ≠ "targetNodeTypes" ∧
      name ≠ "targetTypes" ∧ name ≠ "sourceNodeTypes" ∧ name ≠ "sourceTypes" ∧ name ≠ "label" ∧
      name ≠ "name" := by decide
  obtain ⟨hproperties, htargets, htargets', hsources, hsources', hlabel, hlabel'⟩ :=
    hapart name hname
  rw [get?_of_convertProperties h hproperties, get?_rename_of_ne htargets htargets',
    get?_rename_of_ne hsources hsources', get?_rename_of_ne hlabel hlabel']

theorem properties_of_reshapeRelationship (h : reshapeRelationship r = .ok r') : ∃ converted,
    (objectsOf (memberOr r "properties" .null)).mapM convertProperty = .ok converted ∧
      Entries.get? "properties" r' = some (.arr (converted.map .obj)) := by
  obtain ⟨converted, hconverted, h⟩ := bind_eq_ok.mp h
  refine ⟨converted, ?_, ?_⟩
  · unfold memberOr at hconverted ⊢
    rwa [get?_rename_of_ne (by decide) (by decide), get?_rename_of_ne (by decide) (by decide),
      get?_rename_of_ne (by decide) (by decide)] at hconverted
  · rw [← Except.ok.inj h, Entries.get?_put, if_pos rfl]

theorem restates_of_filled
    (hdefaults : ∀ v, Entries.get? "properties" defaults = some v → objectsOf v = [])
    (h : reshapeRelationship (Entries.fill defaults r) = .ok r') : Restates defaults r r' := by
  constructor
  · intro name hname
    rw [get?_of_reshapeRelationship hname h, Entries.get?_fill]
  · obtain ⟨converted, hconverted, hproperties⟩ := properties_of_reshapeRelationship h
    refine ⟨converted, ?_, hproperties⟩
    -- a list of properties that was filled in holds no object
    have hsame : objectsOf (memberOr (Entries.fill defaults r) "properties" .null) =
        objectsOf (memberOr r "properties" .null) := by
      unfold memberOr
      rw [Entries.get?_fill]
      cases Entries.get? "properties" r with
      | some v => rfl
      | none =>
        cases hfill : Entries.get? "properties" defaults with
        | some v => exact hdefaults v hfill
        | none => rfl
    rwa [← hsame]

theorem relationships_renamed (h : renameFields (.obj fields) = .ok (.obj renamed)) :
    List.Forall₂ (fun r r' => reshapeRelationship r = .ok r') (objectsOf (relationshipsOf fields))
      (objectsOf (memberOr renamed "relationships" .null)) := by
  rw [renameFields_obj] at h
  obtain ⟨typed, htyped, h⟩ := bind_eq_ok.mp h
  obtain ⟨renamed', hrenamed, h⟩ := bind_eq_ok.mp h
  obtain rfl : renamed' = renamed := Json.obj.inj (Except.ok.inj h)
  have hsection : memberOr typed "relationships" .null = relationshipsOf fields := by
    unfold memberOr relationshipsOf
    rw [get?_of_alter htyped (by decide), get?_rename (by decide),
      get?_rename_of_ne (by decide) (by decide), get?_rename_of_ne (by decide) (by decide)]
  rw [← hsection]
  exact forall₂_alter hrenamed

end Renaming

section Run

variable {fields : Fields} {v : Json} {p : Preset}

theorem get?_liftMappings {name : String} (hmappings : name ≠ "ontologyMappings")
    (htypes : name ≠ "nodeTypes") :
    Entries.get? name (liftMappings fields) = Entries.get? name fields := by
  unfold liftMappings
  dsimp only
  split
  · rw [Entries.get?_put, if_neg htypes, Entries.get?_put, if_neg hmappings]
  · rw [Entries.get?_put, if_neg hmappings]

theorem relationshipsOf_put_version {version : Json} :
    relationshipsOf (Entries.put "version" version fields) = relationshipsOf fields := by
  unfold relationshipsOf
  rw [Entries.get?_put, if_neg (by decide), Entries.get?_put, if_neg (by decide)]

theorem keptDefaults_properties {v : Json}
    (h : Entries.get? "properties" (keptDefaults fields) = some v) : objectsOf v = [] := by
  unfold keptDefaults at h
  split at h
  · exact nomatch h
  · obtain rfl : Json.arr [] = v := Option.some.inj h
    rfl

/-- The steps from the first format on, taken one by one. -/
theorem relationships_of_runSteps (h : runSteps chain (.obj fields) = .ok v) :
    ∃ migrated, v = .obj migrated ∧ List.Forall₂ (Restates (keptDefaults fields))
      (objectsOf (relationshipsOf fields)) (objectsOf (memberOr migrated "relationships" .null)) := by
  obtain ⟨_, hfill, filled, rfl, _⟩ := fillDefaults_gives fields
  have hfirst : runSteps chain (.obj fields) =
      runSteps (chain.drop 1) (.obj (Entries.put "version" (.str "1.0.0") filled)) := by
    change (fillDefaults (.obj fields) >>= _) = _
    rw [hfill]
    rfl
  rw [hfirst] at h
  obtain ⟨w, hrename, h⟩ := bind_eq_ok.mp h
  obtain ⟨renamed, rfl⟩ := exists_obj_of_renameFields hrename
  -- the last step leaves the section of relationships as it is
  obtain ⟨migrated, rfl, hkept⟩ : ∃ migrated, v = .obj migrated ∧
      memberOr migrated "relationships" .null = memberOr renamed "relationships" .null := by
    obtain ⟨stamped, hstamped, h⟩ := bind_eq_ok.mp h
    obtain rfl := Except.ok.inj hstamped
    obtain ⟨lifted, hlifted, h⟩ := bind_eq_ok.mp h
    obtain rfl := Except.ok.inj (liftOntology_obj.symm.trans hlifted)
    obtain rfl := Except.ok.inj h
    refine ⟨_, rfl, ?_⟩
    unfold memberOr
    rw [Entries.get?_put, if_neg (by decide), get?_fillDerivations (by decide),
      get?_liftMappings (by decide) (by decide), Entries.get?_put, if_neg (by decide)]
  refine ⟨migrated, rfl, ?_⟩
  have hrenamed := relationships_renamed hrename
  rw [relationshipsOf_put_version, relationshipsOf_filled hfill, List.forall₂_map_left_iff] at hrenamed
  rw [hkept]
  exact hrenamed.imp fun _ _ => restates_of_filled fun _ => keptDefaults_properties

end Run

section Decoding

variable {fields r defaults r' : Fields} {rel : Relationship} {p : Preset}

theorem multiplicity_of_decode (h : Relationship.decode (.obj r) = .ok rel) :
    Schema.optional r "multiplicity" "multiplicity" .manyToMany (Schema.oneOf Multiplicity.words) =
      .ok rel.multiplicity := by
  simp only [Relationship.decode, Schema.record, Schema.Decoded.ap_eq_ok_iff, Except.ok.injEq,
    ↓existsAndEq, true_and, exists_and_left, and_assoc] at h
  obtain ⟨_, _, _, _, _, _, _, _, _, _, multiplicity, hmultiplicity, _, _, _, _, _, _, rfl⟩ := h
  exact hmultiplicity

/-- The multiplicity of a relationship that said nothing of it. -/
def omittedMultiplicity (fields : Fields) : Multiplicity :=
  if inTwoSections fields then .manyToMany else .oneToMany

theorem multiplicity_of_restates (h : Restates (keptDefaults fields) r r')
    (omitted : Entries.get? "multiplicity" r = none)
    (hread : Relationship.decode (.obj r') = .ok rel) :
    rel.multiplicity = omittedMultiplicity fields := by
  have hfilled := h.settings "multiplicity" (by decide)
  have hmultiplicity := multiplicity_of_decode hread
  rw [omitted, Option.none_or] at hfilled
  rw [Schema.optional, Schema.lookup, Option.or_self, hfilled] at hmultiplicity
  unfold keptDefaults at hmultiplicity
  unfold omittedMultiplicity
  split
  next htwo =>
    rw [if_pos htwo] at hmultiplicity
    exact (Except.ok.inj hmultiplicity).symm
  next hone =>
    rw [if_neg hone] at hmultiplicity
    exact (Except.ok.inj hmultiplicity).symm

/-- The objects of a list, without their places. -/
theorem map_snd_objects (v : Json) : (Audit.objects v).map Prod.snd = objectsOf v := by
  cases v with
  | arr items =>
    have hplace : ∀ item : Json × Nat, (item.1.obj?.map (item.2, ·)).map Prod.snd = item.1.obj? := by
      intro item
      rw [Option.map_map]
      exact Option.map_id'
    change (items.zipIdx.filterMap fun item => item.1.obj?.map (item.2, ·)).map Prod.snd =
      items.filterMap Json.obj?
    simp only [List.map_filterMap, hplace]
    change items.zipIdx.filterMap (Json.obj? ∘ Prod.fst) = items.filterMap Json.obj?
    rw [← List.filterMap_map, List.zipIdx_map_fst]
  | _ => rfl

theorem relationships_of_decode (h : Preset.decode (.obj fields) = .ok p) :
    List.Forall₂ (fun r rel => Relationship.decode (.obj r) = .ok rel)
      (objectsOf (memberOr fields "relationships" .null)) p.relationships := by
  have hholds := (Preset.shown_of_decode h).relationships
  rw [← map_snd_objects, List.forall₂_map_left_iff]
  exact hholds

end Decoding

/-- A preset of the first format comes to the current one with its relationships one by one, each with
what it said. What one of them left out is filled in with the defaults of the first format, so that
nothing is left to those of the current format; but where there is a section under each of the two
names, nothing is filled in. -/
theorem migrateRaw_relationships {fields : Fields} {v : Json}
    (h : migrateRaw (.obj fields) (.str "0.9.0") (.str currentVersion) = .ok (.ok v)) :
    ∃ migrated, v = .obj migrated ∧
      List.Forall₂ (Restates (keptDefaults fields)) (objectsOf (relationshipsOf fields))
        (objectsOf (memberOr migrated "relationships" .null)) ∧
      (inTwoSections fields = false →
        ∀ r' ∈ objectsOf (memberOr migrated "relationships" .null),
          ∀ name ∈ Entries.keys formerDefaults, Entries.has name r' = true) ∧
      ∀ p, Audit.validate v = .ok (.ok p) →
        List.Forall₂ (fun r rel => Entries.get? "multiplicity" r = none →
          rel.multiplicity = omittedMultiplicity fields)
          (objectsOf (relationshipsOf fields)) p.relationships := by
  have hrun : runSteps chain (.obj fields) = .ok v :=
    (migrateRaw_of_steps ((stepsBetween_current).trans (if_pos rfl))).mp h
  obtain ⟨migrated, rfl, hrestated⟩ := relationships_of_runSteps hrun
  refine ⟨migrated, rfl, hrestated, ?explicit, ?preset⟩
  case explicit =>
    intro hone
    rw [keptDefaults, hone] at hrestated
    exact forall_right (hrestated.imp fun _ _ => Restates.explicit)
  case preset =>
    intro p hp
    have hread := relationships_of_decode (Audit.validate_obj_eq_ok_iff.mp hp).1
    exact forall₂_trans hrestated hread fun hr hrel omitted =>
      multiplicity_of_restates hr omitted hrel

section Example

/-- A preset of the first format, with one type of nodes and the given sections of relationships. -/
def presetWith (sections : Fields) : Fields :=
  [("id", .str "net"), ("name", .str "Net"), ("version", .str "0.9.0"),
    ("nodeTypes", .arr [.obj [("id", .str "host"), ("name", .str "Host"), ("color", .str "#000000")]])]
    ++ sections

/-- A list of one relationship, of which little more is said than what it joins. -/
def bareLink : Json :=
  .arr [.obj [("id", .str "link"), ("name", .str "Link"), ("sourceTypes", .arr [.str "host"]),
    ("targetTypes", .arr [.str "host"])]]

theorem presetWith_bareLink_migrates :
    ∃ v, migrateRaw (.obj (presetWith [("relationshipTypes", bareLink)])) (.str "0.9.0")
      (.str currentVersion) = .ok (.ok v) := ⟨_, rfl⟩

/-- In one section, the relationship comes to have all that it left out. -/
theorem bareLink_filled :
    ∃ migrated, migrateRaw (.obj (presetWith [("relationshipTypes", bareLink)])) (.str "0.9.0")
        (.str currentVersion) = .ok (.ok (.obj migrated)) ∧
      ∀ r' ∈ objectsOf (memberOr migrated "relationships" .null),
        ∀ name ∈ Entries.keys formerDefaults, Entries.has name r' = true := by
  obtain ⟨v, hv⟩ := presetWith_bareLink_migrates
  obtain ⟨migrated, rfl, _, hfilled, _⟩ := migrateRaw_relationships hv
  exact ⟨migrated, hv, hfilled rfl⟩

/-- Under the present name and beside an empty section under the former name, the same relationship
has no multiplicity after migration, and is read as one of many to many. -/
theorem bareLink_beside_empty_section :
    (∃ migrated, migrateRaw (.obj (presetWith [("relationshipTypes", .arr []),
          ("relationships", bareLink)])) (.str "0.9.0") (.str currentVersion) =
        .ok (.ok (.obj migrated)) ∧
      ∃ r' ∈ objectsOf (memberOr migrated "relationships" .null),
        ∀ name ∈ omittable, Entries.has name r' = false) ∧
    ∃ p, migrate (.obj (presetWith [("relationshipTypes", .arr []), ("relationships", bareLink)]))
        (.str "0.9.0") = .ok (.ok p) ∧
      p.relationships.map Relationship.multiplicity = [.manyToMany] := by
  refine ⟨⟨_, rfl, _, List.mem_singleton.mpr rfl, by decide⟩, _, rfl, rfl⟩

end Example

end Migration

end GraphWorkbench

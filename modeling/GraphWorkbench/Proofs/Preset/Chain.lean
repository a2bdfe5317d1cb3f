import GraphWorkbench.Proofs.Preset.Migrating
/-!
What the chain of migration steps does as a whole. The way from one version to another may be broken
off at any version in between and taken up again from there, and no step changes what it has given.
The second is shown for the sections of a preset one after another. Each step leaves a section in a
shape on which it does nothing, and what it does to the other sections does not touch that shape.
-/
namespace GraphWorkbench

universe u

namespace Entries

variable {α : Type u} {key other : String} {value : α} {entries : List (String × α)}

theorem put_self (h : get? key entries = some value) : put key value entries = entries := by
  induction entries with
  | nil => exact nomatch h
  | cons e rest ih =>
    obtain ⟨k, v⟩ := e
    rw [get?] at h
    rw [put]
    split at h
    next hk => rw [if_pos hk, Option.some.inj h]
    next hk => rw [if_neg hk, ih h]

theorem has_putNew : has other (putNew key value entries) = true ↔
    other = key ∨ has other entries = true := by
  unfold has
  rw [get?_putNew]
  by_cases hkey : other = key
  · simp [hkey]
  · simp [hkey]

theorem has_put : has other (put key value entries) = true ↔
    other = key ∨ has other entries = true := by
  unfold has
  rw [get?_put]
  by_cases hkey : other = key
  · simp [hkey]
  · simp [hkey]

/-- Entries under keys that are not there yet, written one after another. -/
def fill (defaults entries : List (String × α)) : List (String × α) :=
  defaults.foldl (fun acc e => putNew e.1 e.2 acc) entries

theorem has_fill {defaults : List (String × α)} : has other (fill defaults entries) = true ↔
    other ∈ keys defaults ∨ has other entries = true := by
  unfold fill
  induction defaults generalizing entries with
  | nil => simp [keys]
  | cons e rest ih =>
    have hkeys : other ∈ keys (e :: rest) ↔ other = e.1 ∨ other ∈ keys rest := List.mem_cons
    rw [List.foldl_cons, ih, has_putNew, hkeys, or_left_comm, or_assoc]

theorem fill_of_has {defaults : List (String × α)}
    (h : ∀ k ∈ keys defaults, has k entries = true) : fill defaults entries = entries := by
  unfold fill
  induction defaults with
  | nil => rfl
  | cons e rest ih =>
    obtain ⟨hfirst, hrest⟩ := List.forall_mem_cons.mp h
    have hsame : putNew e.1 e.2 entries = entries := if_pos hfirst
    rw [List.foldl_cons, hsame]
    exact ih hrest

/-- What was filled in once is complete. -/
theorem fill_fill {defaults : List (String × α)} :
    fill defaults (fill defaults entries) = fill defaults entries :=
  fill_of_has fun _ hk => has_fill.mpr (.inl hk)

theorem erase_of_absent (h : get? key entries = none) : erase key entries = entries := by
  apply erase_of_notMem
  rw [← get?_isSome_iff, h]
  exact Bool.false_ne_true

theorem get?_erase_self : get? key (erase key entries) = none := by
  have hgone : key ∉ keys (erase key entries) := by
    intro hmem
    obtain ⟨e, he, hkey⟩ := List.mem_map.mp hmem
    exact of_decide_eq_true (List.mem_filter.mp he).2 hkey
  rw [← get?_isSome_iff] at hgone
  exact Option.not_isSome_iff_eq_none.mp hgone

end Entries

namespace Migration

open Outcome
open Schema (Fields)

section Stages

variable {i j k : Nat} {first mid last : String} {steps rest : List ChainStep} {v w : Json}

/-- One version is not later than another, by their numbers. -/
def VersionLe (a b : String) : Prop :=
  ∃ m n, parseVersion (.str a) = .ok m ∧ parseVersion (.str b) = .ok n ∧ m.le n

/-- The supported versions stand in the chain in the order of their numbers. -/
theorem places_of_versionLe (h : VersionLe first last) (hfirst : first ∈ supported)
    (hlast : last ∈ supported) :
    ∃ i j, place? (.str first) = some i ∧ place? (.str last) = some j ∧ i ≤ j := by
  -- the supported versions are few, so their numbers and places can be compared pair by pair
  have hordered : ∀ a ∈ supported, ∀ b ∈ supported, ∀ m ∈ (parseVersion (.str a)).toOption,
      ∀ n ∈ (parseVersion (.str b)).toOption, m.le n →
        (place? (.str a)).getD 4 ≤ (place? (.str b)).getD 0 := by decide
  have hplaces : ∀ a ∈ supported, (place? (.str a)).isSome = true := by decide
  obtain ⟨i, hi⟩ := Option.isSome_iff_exists.mp (hplaces first hfirst)
  obtain ⟨j, hj⟩ := Option.isSome_iff_exists.mp (hplaces last hlast)
  obtain ⟨m, n, hm, hn, hle⟩ := h
  have hij := hordered first hfirst last hlast m (by rw [hm]; rfl) n (by rw [hn]; rfl) hle
  rw [hi, hj] at hij
  exact ⟨i, j, hi, hj, hij⟩

theorem stepsBetween_of_places (hfirst : place? (.str first) = some i)
    (hlast : place? (.str last) = some j) (h : i ≤ j) :
    stepsBetween (.str first) (.str last) = .ok ((chain.take j).drop i) := by
  unfold stepsBetween
  rw [hfirst, hlast]
  exact if_neg (Nat.not_lt.mpr h)

/-- A stretch of a list, cut at a place inside it. -/
theorem drop_take_split {α : Type} (l : List α) (hij : i ≤ j) (hjk : j ≤ k) :
    (l.take k).drop i = (l.take j).drop i ++ (l.take k).drop j := by
  have hlength : k - i = (j - i) + (k - j) := by omega
  have hmiddle : i + (j - i) = j := by omega
  rw [List.drop_take, List.drop_take, List.drop_take, hlength, List.take_add, List.drop_drop,
    hmiddle]

theorem runSteps_append : runSteps (steps ++ rest) v = runSteps steps v >>= runSteps rest := by
  induction steps generalizing v with
  | nil => rfl
  | cons s steps ih =>
    rw [List.cons_append, runSteps, runSteps]
    cases s.transform v with
    | error e => rfl
    | ok w =>
      rw [ok_bind, ok_bind]
      cases stamp s.target w with
      | error e => rfl
      | ok stamped => exact ih

theorem migrateRaw_of_steps {source target raw : Json} (h : stepsBetween source target = .ok steps) :
    migrateRaw raw source target = .ok (.ok v) ↔ runSteps steps raw = .ok v := by
  have hrun : migrateRaw raw source target = (do return .ok (← runSteps steps raw)) := by
    unfold migrateRaw
    rw [h]
  rw [hrun, bind_eq_ok]
  constructor
  · rintro ⟨w, hw, hv⟩
    rw [hw, Except.ok.inj (Except.ok.inj hv)]
  · intro hv
    exact ⟨v, hv, rfl⟩

end Stages

/-- What a computation has given stays as it is when the computation is run on it. -/
def Settles {ε α : Type} (f : α → Except ε α) : Prop := ∀ x y, f x = .ok y → f y = .ok y

section Settling

variable {fields fields' : Fields} {name old new : String}

theorem Settles.mapM {ε α : Type} {f : α → Except ε α} (h : Settles f) : Settles (List.mapM f) := by
  intro xs
  induction xs with
  | nil =>
    intro ys hys
    obtain rfl := Except.ok.inj hys
    rfl
  | cons x rest ih =>
    intro ys hys
    rw [List.mapM_cons] at hys
    obtain ⟨y, hy, hys⟩ := bind_eq_ok.mp hys
    obtain ⟨rest', hrest, hys⟩ := bind_eq_ok.mp hys
    obtain rfl := Except.ok.inj hys
    rw [List.mapM_cons, h x y hy, ok_bind, ih rest' hrest, ok_bind, pure_eq_ok]

theorem Settles.mapObjects {f : Fields → Except Fault Fields} (h : Settles f) :
    Settles (mapObjects f) := by
  intro v v' hv
  cases v with
  | arr items =>
    obtain ⟨items', hitems, hv⟩ := bind_eq_ok.mp hv
    obtain rfl := Except.ok.inj hv
    refine bind_eq_ok.mpr ⟨items', Settles.mapM ?_ items items' hitems, rfl⟩
    -- an item that is an object settles as its fields do, and others are left alone
    intro item item' hitem
    cases item with
    | obj fields =>
      obtain ⟨fields', hfields, hitem⟩ := bind_eq_ok.mp hitem
      obtain rfl := Except.ok.inj hitem
      change (f fields' >>= _) = _
      rw [h fields fields' hfields]
      rfl
    | _ =>
      obtain rfl := Except.ok.inj hitem
      rfl
  | _ =>
    obtain rfl := Except.ok.inj hv
    rfl

/-- A member that a change has given is not changed again, whatever happened beside it. -/
theorem Settles.alter {f : Json → Except Fault Json} (hf : Settles f) {later : Fields}
    (h : alter name f fields = .ok fields')
    (hlater : Entries.get? name later = Entries.get? name fields') :
    alter name f later = .ok later := by
  unfold Migration.alter at h ⊢
  rw [hlater]
  cases hget : Entries.get? name fields with
  | none =>
    rw [hget] at h
    rw [← Except.ok.inj h, hget]
  | some v =>
    rw [hget] at h
    obtain ⟨v', hv, h⟩ := bind_eq_ok.mp h
    have hput : Entries.get? name fields' = some v' := by
      rw [← Except.ok.inj h, Entries.get?_put, if_pos rfl]
    rw [hput] at hlater ⊢
    change (f v' >>= _) = _
    rw [hf v v' hv, ok_bind, pure_eq_ok, Entries.put_self hlater]

theorem rename_of_absent (h : Entries.get? old fields = none) : rename old new fields = fields := by
  unfold rename
  rw [h]

theorem absent_of_rename (h : new ≠ old) : Entries.get? old (rename old new fields) = none := by
  unfold rename
  split
  next hold => exact hold
  next v hold => rw [Entries.get?_putNew, if_neg h.symm, Entries.get?_erase_self]

end Settling

section FilledIn

variable {fields fields' : Fields} {name other : String}

/-- A change of a member takes no member away and adds none. -/
theorem has_of_alter {f : Json → Except Fault Json} (h : alter name f fields = .ok fields') :
    Entries.has other fields' = Entries.has other fields := by
  by_cases hother : other = name
  · unfold alter at h
    cases hget : Entries.get? name fields with
    | none =>
      rw [hget] at h
      rw [← Except.ok.inj h]
    | some v =>
      rw [hget] at h
      obtain ⟨v', _, h⟩ := bind_eq_ok.mp h
      unfold Entries.has
      rw [← Except.ok.inj h, hother, Entries.get?_put, if_pos rfl, hget]
      rfl
  · unfold Entries.has
    rw [get?_of_alter h hother]

/-- Filling in what an object left out changes nothing when it is done again. -/
theorem settles_fill (defaults : Fields) :
    Settles fun fields : Fields => (.ok (Entries.fill defaults fields) : Except Fault Fields) := by
  intro t filled h
  obtain rfl := Except.ok.inj h
  exact congrArg Except.ok Entries.fill_fill

theorem settles_fillNodeType : Settles fillNodeType :=
  settles_fill [("style", .obj [("backgroundColor", .str "#3b82f6"),
    ("borderColor", .str "#2563eb")]), ("properties", .arr []), ("validationRules", .arr []),
    ("ontologyMappings", .arr [])]

theorem settles_fillRelationship : Settles fillRelationship :=
  settles_fill [("style", .obj [("strokeColor", .str "#3b82f6"), ("strokeWidth", .int 2)]),
    ("directionality", .str "directed"), ("multiplicity", .str "one-to-many"),
    ("properties", .arr [])]

/-- The limits that behaviour gets when it has none. -/
def limits : Fields := [("maxNodes", .int 1000), ("maxEdges", .int 2000)]

/-- Behaviour as the first step leaves it. -/
def fillBehavior (fields : Fields) : Fields :=
  let behavior := match memberOr fields "behavior" .null with
    | .obj b => .obj (Entries.fill limits b)
    | _ => defaultBehavior
  Entries.put "behavior" behavior fields

/-- Styling as the first step leaves it. -/
def fillStyling (fields : Fields) : Fields :=
  match memberOr fields "styling" .null with
  | .obj _ => fields
  | _ => Entries.put "styling" defaultStyling fields

/-- The section in which the first step looks for relationships. -/
def relationshipSection (fields : Fields) : String :=
  if Entries.has "relationshipTypes" fields then "relationshipTypes" else "relationships"

theorem fillDefaults_obj : fillDefaults (.obj fields) = (do
    let typed ← alter "nodeTypes" (mapObjects fillNodeType) (fillStyling (fillBehavior fields))
    return .obj (← alter (relationshipSection typed) (mapObjects fillRelationship) typed)) := rfl

theorem behavior_fillBehavior : ∃ b, Entries.get? "behavior" (fillBehavior fields) = some (.obj b) ∧
    Entries.fill limits b = b := by
  unfold fillBehavior
  rw [Entries.get?_put, if_pos rfl]
  split
  next b _ => exact ⟨_, rfl, Entries.fill_fill⟩
  next => exact ⟨_, rfl, rfl⟩

theorem fillBehavior_of_filled {b : Fields} (hb : Entries.get? "behavior" fields = some (.obj b))
    (hfilled : Entries.fill limits b = b) : fillBehavior fields = fields := by
  have hmember : memberOr fields "behavior" .null = .obj b := by
    unfold memberOr
    rw [hb, Option.getD_some]
  unfold fillBehavior
  rw [hmember]
  dsimp only
  rw [hfilled, Entries.put_self hb]

theorem styling_fillStyling : ∃ s, Entries.get? "styling" (fillStyling fields) = some (.obj s) := by
  unfold fillStyling
  split
  next s hs =>
    unfold memberOr at hs
    cases hget : Entries.get? "styling" fields with
    | none =>
      rw [hget, Option.getD_none] at hs
      cases hs
    | some found =>
      rw [hget, Option.getD_some] at hs
      exact ⟨s, congrArg some hs⟩
  next =>
    rw [Entries.get?_put, if_pos rfl]
    exact ⟨_, rfl⟩

theorem get?_fillStyling (h : name ≠ "styling") :
    Entries.get? name (fillStyling fields) = Entries.get? name fields := by
  unfold fillStyling
  split
  · rfl
  · rw [Entries.get?_put, if_neg h]

theorem fillStyling_of_filled {s : Fields} (hs : Entries.get? "styling" fields = some (.obj s)) :
    fillStyling fields = fields := by
  unfold fillStyling memberOr
  rw [hs]
  rfl

theorem settles_fillDefaults {v : Json} (h : fillDefaults (.obj fields) = .ok v) :
    fillDefaults v = .ok v := by
  rw [fillDefaults_obj] at h
  obtain ⟨typed, htyped, h⟩ := bind_eq_ok.mp h
  obtain ⟨filled, hfilled, h⟩ := bind_eq_ok.mp h
  obtain rfl := Except.ok.inj h
  have hsection : relationshipSection typed ≠ "nodeTypes" ∧
      relationshipSection typed ≠ "behavior" ∧ relationshipSection typed ≠ "styling" := by
    unfold relationshipSection
    split <;> decide
  obtain ⟨hnodeTypes, hbehavior, hstyling⟩ := hsection
  have hbehaved : fillBehavior filled = filled := by
    obtain ⟨b, hb, hlimits⟩ := @behavior_fillBehavior fields
    rw [← get?_fillStyling (by decide), ← get?_of_alter htyped (by decide),
      ← get?_of_alter hfilled hbehavior.symm] at hb
    exact fillBehavior_of_filled hb hlimits
  have hstyled : fillStyling filled = filled := by
    obtain ⟨s, hs⟩ := @styling_fillStyling (fillBehavior fields)
    rw [← get?_of_alter htyped (by decide), ← get?_of_alter hfilled hstyling.symm] at hs
    exact fillStyling_of_filled hs
  have hagain : alter "nodeTypes" (mapObjects fillNodeType) filled = .ok filled :=
    settles_fillNodeType.mapObjects.alter htyped (get?_of_alter hfilled hnodeTypes.symm)
  -- relationships are looked for where they were before
  have hsame : relationshipSection filled = relationshipSection typed := by
    unfold relationshipSection
    rw [has_of_alter hfilled]
  rw [fillDefaults_obj, hbehaved, hstyled, hagain, ok_bind, hsame,
    settles_fillRelationship.mapObjects.alter hfilled rfl]
  rfl

end FilledIn

section Renamed

variable {fields fields' : Fields} {name : String}

theorem absent_of_convertProperty {q q' : Fields} (h : convertProperty q = .ok q') :
    Entries.get? "key" q' = none := by
  unfold convertProperty at h
  cases hkey : Entries.get? "key" q with
  | none =>
    rw [hkey] at h
    rw [← Except.ok.inj h, hkey]
  | some key =>
    rw [hkey] at h
    obtain ⟨kind, _, h⟩ := bind_eq_ok.mp h
    rw [← Except.ok.inj h]
    cases Entries.get? "options" q <;> rfl

theorem settles_convertProperty : Settles convertProperty := by
  intro q q' h
  unfold convertProperty
  rw [absent_of_convertProperty h]

theorem objectsOf_map_obj (objects : List Fields) :
    objectsOf (.arr (objects.map .obj)) = objects := by
  change (objects.map Json.obj).filterMap Json.obj? = objects
  rw [List.filterMap_map]
  exact List.filterMap_some

/-- Properties in their present shape are left alone, whatever happened beside them. -/
theorem convertProperties_of_converted {later : Fields} (h : convertProperties fields = .ok fields')
    (hlater : Entries.get? "properties" later = Entries.get? "properties" fields') :
    convertProperties later = .ok later := by
  obtain ⟨converted, hconverted, h⟩ := bind_eq_ok.mp h
  have hput : Entries.get? "properties" fields' = some (.arr (converted.map .obj)) := by
    rw [← Except.ok.inj h, Entries.get?_put, if_pos rfl]
  rw [hput] at hlater
  have hagain : (objectsOf (memberOr later "properties" .null)).mapM convertProperty =
      .ok converted := by
    unfold memberOr
    rw [hlater, Option.getD_some, objectsOf_map_obj]
    exact settles_convertProperty.mapM _ _ hconverted
  unfold convertProperties
  rw [hagain, ok_bind, pure_eq_ok, Entries.put_self hlater]

theorem get?_of_convertProperties (h : convertProperties fields = .ok fields')
    (hname : name ≠ "properties") : Entries.get? name fields' = Entries.get? name fields := by
  obtain ⟨converted, _, h⟩ := bind_eq_ok.mp h
  rw [← Except.ok.inj h, Entries.get?_put, if_neg hname]

/-- The colour of a node type stands in its style and nowhere else. -/
structure ColorMoved (fields : Fields) : Prop where
  gone : Entries.get? "color" fields = none
  style : ∃ style, Entries.get? "style" fields = some (.obj style) ∧
    Entries.has "color" style = true

theorem colorMoved_moveColor : ColorMoved (moveColor fields) := by
  refine ⟨Entries.get?_erase_self, ?_⟩
  unfold moveColor
  rw [Entries.get?_erase_of_ne (by decide), Entries.get?_put, if_pos rfl]
  refine ⟨_, rfl, ?_⟩
  split
  · exact Entries.has_put.mpr (.inl rfl)
  · exact Entries.has_putNew.mpr (.inl rfl)

theorem ColorMoved.moveColor_eq (h : ColorMoved fields) : moveColor fields = fields := by
  obtain ⟨style, hstyle, hcolor⟩ := h.style
  unfold moveColor memberOr
  simp only [hstyle, h.gone, Option.getD_some, Option.getD_none]
  rw [if_neg (by decide), Entries.putNew, if_pos hcolor, Entries.put_self hstyle,
    Entries.erase_of_absent h.gone]

theorem get?_moveColor (hstyle : name ≠ "style") (hcolor : name ≠ "color") :
    Entries.get? name (moveColor fields) = Entries.get? name fields := by
  unfold moveColor
  rw [Entries.get?_erase_of_ne hcolor, Entries.get?_put, if_neg hstyle]

/-- A node type with its present names, colour and properties. -/
def reshapeNodeType (fields : Fields) : Except Fault Fields :=
  convertProperties (moveColor (rename "label" "name" fields))

/-- A relationship with its present names and properties. -/
def reshapeRelationship (fields : Fields) : Except Fault Fields :=
  convertProperties (rename "targetNodeTypes" "targetTypes"
    (rename "sourceNodeTypes" "sourceTypes" (rename "label" "name" fields)))

theorem settles_reshapeNodeType : Settles reshapeNodeType := by
  intro t t' h
  have hmoved := @colorMoved_moveColor (rename "label" "name" t)
  have hlabel : Entries.get? "label" t' = none := by
    rw [get?_of_convertProperties h (by decide), get?_moveColor (by decide) (by decide)]
    exact absent_of_rename (by decide)
  have hcolor : ColorMoved t' := by
    obtain ⟨style, hstyle, hhas⟩ := hmoved.style
    refine ⟨?_, style, ?_, hhas⟩
    · rw [get?_of_convertProperties h (by decide), hmoved.gone]
    · rw [get?_of_convertProperties h (by decide), hstyle]
  unfold reshapeNodeType
  rw [rename_of_absent hlabel, hcolor.moveColor_eq]
  exact convertProperties_of_converted h rfl

theorem settles_reshapeRelationship : Settles reshapeRelationship := by
  intro r r' h
  have hlabel : Entries.get? "label" r' = none := by
    rw [get?_of_convertProperties h (by decide), get?_rename_of_ne (by decide) (by decide),
      get?_rename_of_ne (by decide) (by decide)]
    exact absent_of_rename (by decide)
  have hsources : Entries.get? "sourceNodeTypes" r' = none := by
    rw [get?_of_convertProperties h (by decide), get?_rename_of_ne (by decide) (by decide)]
    exact absent_of_rename (by decide)
  have htargets : Entries.get? "targetNodeTypes" r' = none := by
    rw [get?_of_convertProperties h (by decide)]
    exact absent_of_rename (by decide)
  unfold reshapeRelationship
  rw [rename_of_absent hlabel, rename_of_absent hsources, rename_of_absent htargets]
  exact convertProperties_of_converted h rfl

theorem renameFields_obj : renameFields (.obj fields) = (do
    let typed ← alter "nodeTypes" (mapObjects reshapeNodeType)
      (rename "relationshipTypes" "relationships" (rename "label" "name" fields))
    return .obj (← alter "relationships" (mapObjects reshapeRelationship) typed)) := rfl

theorem settles_renameFields {v : Json} (h : renameFields (.obj fields) = .ok v) :
    renameFields v = .ok v := by
  rw [renameFields_obj] at h
  obtain ⟨typed, htyped, h⟩ := bind_eq_ok.mp h
  obtain ⟨renamed, hrenamed, h⟩ := bind_eq_ok.mp h
  obtain rfl := Except.ok.inj h
  have hlabel : Entries.get? "label" renamed = none := by
    rw [get?_of_alter hrenamed (by decide), get?_of_alter htyped (by decide),
      get?_rename_of_ne (by decide) (by decide)]
    exact absent_of_rename (by decide)
  have hformer : Entries.get? "relationshipTypes" renamed = none := by
    rw [get?_of_alter hrenamed (by decide), get?_of_alter htyped (by decide)]
    exact absent_of_rename (by decide)
  have hagain : alter "nodeTypes" (mapObjects reshapeNodeType) renamed = .ok renamed :=
    settles_reshapeNodeType.mapObjects.alter htyped (get?_of_alter hrenamed (by decide))
  rw [renameFields_obj, rename_of_absent hlabel, rename_of_absent hformer, hagain, ok_bind,
    settles_reshapeRelationship.mapObjects.alter hrenamed rfl]
  rfl

end Renamed

section Lifted

variable {fields : Fields}

/-- A node type from which there is nothing to lift, and no former name to replace. -/
structure Bare (fields : Fields) : Prop where
  ontologyClass : Entries.get? "d3fendClass" fields = none
  relationships : Entries.get? "allowedRelationships" fields = none
  mappings : Entries.get? "ontologyMappings" fields = none

theorem Bare.liftFrom_eq (h : Bare fields) : liftFrom fields = (fields, []) := by
  unfold liftFrom memberOr
  rw [rename_of_absent h.ontologyClass, rename_of_absent h.relationships]
  simp only [h.mappings, Option.getD_none, Entries.erase_of_absent h.mappings]
  rfl

theorem Bare.classFrom (h : Bare fields) (mapping : Fields) : Bare (classFrom mapping fields) := by
  unfold Migration.classFrom
  dsimp only
  split
  · refine ⟨?_, ?_, ?_⟩
    · rw [Entries.get?_put, if_neg (by decide), h.ontologyClass]
    · rw [Entries.get?_put, if_neg (by decide), h.relationships]
    · rw [Entries.get?_put, if_neg (by decide), h.mappings]
  · exact h

theorem bare_liftFrom : Bare (liftFrom fields).1 := by
  let renamed := rename "allowedRelationships" "outgoingRelationships"
    (rename "d3fendClass" "ontologyClass" fields)
  have hstart : Bare (Entries.erase "ontologyMappings" renamed) := by
    refine ⟨?_, ?_, Entries.get?_erase_self⟩
    · rw [Entries.get?_erase_of_ne (by decide), get?_rename_of_ne (by decide) (by decide)]
      exact absent_of_rename (by decide)
    · rw [Entries.get?_erase_of_ne (by decide)]
      exact absent_of_rename (by decide)
  -- the mappings are gone already, and looking at them one by one only gives an ontology class
  unfold liftFrom
  refine List.foldlRecOn (motive := fun (lifting : Fields × List Fields) => Bare lifting.1) _ _
    hstart ?_
  intro lifting h mapping _
  dsimp only
  split
  · exact h
  · exact h.classFrom mapping.1

/-- What is lifted out of an item of the node types, and what is left of the item. -/
def liftItem : Json → Json × List Fields
  | .obj t => (.obj (liftFrom t).1, (liftFrom t).2)
  | v => (v, [])

theorem liftItem_fst (item : Json) : liftItem (liftItem item).1 = ((liftItem item).1, []) := by
  cases item with
  | obj t =>
    change (Json.obj (liftFrom (liftFrom t).1).1, (liftFrom (liftFrom t).1).2) = _
    rw [bare_liftFrom.liftFrom_eq]
    rfl
  | _ => rfl

/-- The section of node types after the lifting, and the mappings lifted out of it. -/
def liftSection (fields : Fields) : Option Json × List Fields :=
  match Entries.get? "nodeTypes" fields with
  | some (.arr items) =>
    (some (.arr ((items.map liftItem).map Prod.fst)), (items.map liftItem).flatMap Prod.snd)
  | v => (v, [])

/-- The mappings that stand at the top already. -/
def topMappings (fields : Fields) : List Json :=
  match memberOr fields "ontologyMappings" .null with
  | .arr items => items
  | _ => []

/-- The node types of a preset and its mappings, those that were lifted after those at the top. -/
def liftMappings (fields : Fields) : Fields :=
  let upper := Entries.put "ontologyMappings"
    (.arr (topMappings fields ++ (liftSection fields).2.map .obj)) fields
  match (liftSection fields).1 with
  | some v => Entries.put "nodeTypes" v upper
  | none => upper

/-- The settings of derivations that behaviour gets when it has none. -/
def derivationSettings : Fields := [("historyLimit", .int 100), ("enableInference", .bool false)]

/-- Behaviour with the settings of derivations. -/
def fillDerivations (fields : Fields) : Fields :=
  let behavior : Fields := match memberOr fields "behavior" .null with
    | .obj b => b
    | _ => []
  Entries.put "behavior" (.obj (Entries.fill derivationSettings behavior)) fields

theorem liftOntology_obj :
    liftOntology (.obj fields) = .ok (.obj (fillDerivations (liftMappings fields))) := by
  have hitem : liftItem = fun item : Json => match item with
      | .obj t => (Json.obj (liftFrom t).1, (liftFrom t).2)
      | v => (v, []) := by
    funext item
    cases item <;> rfl
  unfold liftMappings liftSection
  rw [hitem, liftOntology]
  cases Entries.get? "nodeTypes" fields with
  | none => rfl
  | some v => cases v <;> rfl

theorem nodeTypes_liftMappings :
    Entries.get? "nodeTypes" (liftMappings fields) = (liftSection fields).1 := by
  unfold liftMappings
  dsimp only
  cases hsection : (liftSection fields).1 with
  | some v => exact (Entries.get?_put ..).trans (if_pos rfl)
  | none =>
    have hnone : Entries.get? "nodeTypes" fields = none := by
      unfold liftSection at hsection
      cases hget : Entries.get? "nodeTypes" fields with
      | none => rfl
      | some v => cases v <;> simp [hget] at hsection
    exact (Entries.get?_put ..).trans ((if_neg (by decide)).trans hnone)

theorem mappings_liftMappings : Entries.get? "ontologyMappings" (liftMappings fields) =
    some (.arr (topMappings fields ++ (liftSection fields).2.map .obj)) := by
  unfold liftMappings
  dsimp only
  split
  · rw [Entries.get?_put, if_neg (by decide), Entries.get?_put, if_pos rfl]
  · rw [Entries.get?_put, if_pos rfl]

/-- Node types out of which everything was lifted give nothing more. -/
theorem liftSection_of_lifted {later : Fields}
    (h : Entries.get? "nodeTypes" later = (liftSection fields).1) :
    liftSection later = (Entries.get? "nodeTypes" later, []) := by
  unfold liftSection at h ⊢
  rw [h]
  cases Entries.get? "nodeTypes" fields with
  | none => rfl
  | some v =>
    cases v with
    | arr items =>
      have hagain : ((items.map liftItem).map Prod.fst).map liftItem =
          ((items.map liftItem).map Prod.fst).map fun item => (item, []) := by
        simp only [List.map_map, Function.comp_def, liftItem_fst]
      dsimp only
      rw [hagain]
      simp [List.flatMap_map]
    | _ => rfl

theorem liftMappings_of_lifted {items : List Json}
    (hsection : liftSection fields = (Entries.get? "nodeTypes" fields, []))
    (hmappings : Entries.get? "ontologyMappings" fields = some (.arr items)) :
    liftMappings fields = fields := by
  have htop : topMappings fields = items := by
    unfold topMappings memberOr
    rw [hmappings]
    rfl
  unfold liftMappings
  rw [hsection, htop, List.map_nil, List.append_nil, Entries.put_self hmappings]
  dsimp only
  split
  next v hv => exact Entries.put_self hv
  next => rfl

theorem behavior_fillDerivations :
    ∃ b, Entries.get? "behavior" (fillDerivations fields) = some (.obj b) ∧
      Entries.fill derivationSettings b = b := by
  unfold fillDerivations
  rw [Entries.get?_put, if_pos rfl]
  exact ⟨_, rfl, Entries.fill_fill⟩

theorem get?_fillDerivations {name : String} (h : name ≠ "behavior") :
    Entries.get? name (fillDerivations fields) = Entries.get? name fields := by
  unfold fillDerivations
  rw [Entries.get?_put, if_neg h]

theorem fillDerivations_of_filled {b : Fields} (hb : Entries.get? "behavior" fields = some (.obj b))
    (hfilled : Entries.fill derivationSettings b = b) : fillDerivations fields = fields := by
  unfold fillDerivations memberOr
  rw [hb]
  dsimp only [Option.getD_some]
  rw [hfilled, Entries.put_self hb]

theorem settles_liftOntology {v : Json} (h : liftOntology (.obj fields) = .ok v) :
    liftOntology v = .ok v := by
  rw [liftOntology_obj] at h
  obtain rfl := Except.ok.inj h
  have hnodeTypes : Entries.get? "nodeTypes" (fillDerivations (liftMappings fields)) =
      (liftSection fields).1 := by
    rw [get?_fillDerivations (by decide), nodeTypes_liftMappings]
  have hmappings : Entries.get? "ontologyMappings" (fillDerivations (liftMappings fields)) =
      some (.arr (topMappings fields ++ (liftSection fields).2.map .obj)) := by
    rw [get?_fillDerivations (by decide), mappings_liftMappings]
  obtain ⟨b, hb, hfilled⟩ := @behavior_fillDerivations (liftMappings fields)
  rw [liftOntology_obj, liftMappings_of_lifted (liftSection_of_lifted hnodeTypes) hmappings,
    fillDerivations_of_filled hb hfilled]

end Lifted

/-- A migration may be broken off at any version between its ends and taken up again from there,
with the same outcome, and a step does not change what it has given itself. -/
theorem migrateRaw_in_stages :
    (∀ {first mid last : String} {fields : Fields} {v : Json},
      first ∈ supported → mid ∈ supported → last ∈ supported →
      VersionLe first mid → VersionLe mid last →
      migrateRaw (.obj fields) (.str first) (.str last) = .ok (.ok v) →
        ∃ w, migrateRaw (.obj fields) (.str first) (.str mid) = .ok (.ok w) ∧
          migrateRaw w (.str mid) (.str last) = .ok (.ok v)) ∧
    ∀ step ∈ chain, ∀ {fields : Fields} {v : Json},
      step.transform (.obj fields) = .ok v → step.transform v = .ok v := by
  constructor
  · intro first mid last fields v hfirst hmid hlast hfm hml hrun
    obtain ⟨i, j, hi, hj, hij⟩ := places_of_versionLe hfm hfirst hmid
    obtain ⟨j', k, hj', hk, hjk⟩ := places_of_versionLe hml hmid hlast
    obtain rfl : j' = j := Option.some.inj (hj'.symm.trans hj)
    have hwhole := stepsBetween_of_places hi hk (Nat.le_trans hij hjk)
    have hbefore := stepsBetween_of_places hi hj hij
    have hafter := stepsBetween_of_places hj hk hjk
    rw [migrateRaw_of_steps hwhole, drop_take_split chain hij hjk, runSteps_append,
      bind_eq_ok] at hrun
    -- the run of all steps passes through the value at which the first stretch ends
    obtain ⟨w, hw, hv⟩ := hrun
    exact ⟨w, (migrateRaw_of_steps hbefore).mpr hw, (migrateRaw_of_steps hafter).mpr hv⟩
  · intro step hstep fields v h
    simp only [chain, List.mem_cons, List.not_mem_nil, or_false] at hstep
    obtain rfl | rfl | rfl := hstep
    · exact settles_fillDefaults h
    · exact settles_renameFields h
    · exact settles_liftOntology h

section Example

/-- A preset of the first format, with former names, a colour, a property and a mapping. -/
def legacyNetwork : Json :=
  .obj [("label", .str "Network"),
    ("nodeTypes", .arr [.obj [("id", .str "host"), ("color", .str "#123456"),
      ("d3fendClass", .str "Sensor"),
      ("properties", .arr [.obj [("key", .str "kind"), ("label", .str "Kind"),
        ("type", .str "select"), ("options", .arr [.str "server"])]]),
      ("ontologyMappings", .arr [.obj [("rule", .obj [("kind", .str "by-type")])]])]]),
    ("relationshipTypes", .arr [.obj [("id", .str "link"),
      ("sourceNodeTypes", .arr [.str "*"])]])]

theorem legacyNetwork_migrates :
    ∃ v, migrateRaw legacyNetwork (.str "0.9.0") (.str "2.0.0") = .ok (.ok v) := ⟨_, rfl⟩

theorem legacyNetwork_renames : ∃ v, renameFields legacyNetwork = .ok v := ⟨_, rfl⟩

/-- The network comes to the current format by way of 1.1.0 too, and its fields are renamed once. -/
theorem legacyNetwork_in_stages :
    (∃ v w, migrateRaw legacyNetwork (.str "0.9.0") (.str "2.0.0") = .ok (.ok v) ∧
      migrateRaw legacyNetwork (.str "0.9.0") (.str "1.1.0") = .ok (.ok w) ∧
      migrateRaw w (.str "1.1.0") (.str "2.0.0") = .ok (.ok v)) ∧
    ∃ v, renameFields legacyNetwork = .ok v ∧ renameFields v = .ok v := by
  have hfirst : VersionLe "0.9.0" "1.1.0" := ⟨[0, 9, 0], [1, 1, 0], rfl, rfl, by decide⟩
  have hsecond : VersionLe "1.1.0" "2.0.0" := ⟨[1, 1, 0], [2, 0, 0], rfl, rfl, by decide⟩
  obtain ⟨v, hv⟩ := legacyNetwork_migrates
  obtain ⟨w, hw, hrest⟩ :=
    migrateRaw_in_stages.1 (by decide) (by decide) (by decide) hfirst hsecond hv
  obtain ⟨renamed, hrenamed⟩ := legacyNetwork_renames
  refine ⟨⟨v, w, hv, hw, hrest⟩, renamed, hrenamed, ?_⟩
  exact migrateRaw_in_stages.2 ⟨"1.0.0", "1.1.0", _, renameFields⟩
    (List.mem_cons_of_mem _ List.mem_cons_self) hrenamed

end Example

end Migration

end GraphWorkbench

import GraphWorkbench.Proofs.Preset.Chain
import Mathlib.Data.List.Forall2
/-!
Where the mappings of node types go when a preset of format 1.1.0 comes to the current format. Each
mapping with a rule goes to the top, in the order in which the mappings were found, and nothing of it
changes but that it names the node type that it was found in; the node types keep nothing of it.
-/
namespace GraphWorkbench

theorem Entries.nodup_keys_putNew {α : Type} {key : String} {value : α}
    {entries : List (String × α)} (h : (keys entries).Nodup) :
    (keys (putNew key value entries)).Nodup := by
  unfold putNew
  split
  next => exact h
  next hnew =>
    have hkey : key ∉ keys entries := fun hmem => hnew ((get?_isSome_iff key entries).mpr hmem)
    rw [← put_of_notMem hkey]
    exact nodup_keys_put key value h

namespace Migration

open Outcome
open Schema (Fields)

/-- A mapping with a rule as it was found: its node type, and its place, counted from one, among the
mappings there. -/
structure Finding where
  nodeId : Json
  position : Nat
  mapping : Fields

/-- The id of a node type. -/
def nodeTypeId (t : Fields) : Json := memberOr t "id" (.str "node")

/-- The mappings of a node type, with and without a rule. -/
def mappingsOf (t : Fields) : List Fields := objectsOf (memberOr t "ontologyMappings" .null)

/-- The mappings of a node type that have a rule. -/
def findings (t : Fields) : List Finding :=
  ((mappingsOf t).zipIdx 1).filterMap fun (mapping, position) =>
    if Entries.has "rule" mapping then some ⟨nodeTypeId t, position, mapping⟩ else none

/-- The id that a mapping is given when it has none. -/
def givenId (nodeId : Json) (position : Nat) : String := s!"{nodeId.text}-mapping-{position}"

/-- The former names of what a mapping says of its node type. -/
def supersededNames : List String := ["ontologyClass", "d3fendClass"]

/-- A mapping at the top is one that was found in a node type. -/
structure Finding.Lifts (f : Finding) (m : Fields) : Prop where
  source : Entries.get? "sourceType" m = some f.nodeId
  id : Entries.get? "id" m =
    some ((Entries.get? "id" f.mapping).getD (.str (givenId f.nodeId f.position)))
  superseded : ∀ name ∈ supersededNames, Entries.get? name m = none
  kept : ∀ name, name ≠ "sourceType" → name ≠ "id" → name ∉ supersededNames →
    Entries.get? name m = Entries.get? name f.mapping
  distinct : (Entries.keys f.mapping).Nodup → (Entries.keys m).Nodup

section Mapping

variable {mapping : Fields}

/-- What a mapping keeps of itself is what is left when three names are taken out one by one. -/
theorem lifted_eq_erase (f : Finding) : lifted f.nodeId f.position f.mapping =
    Entries.put "sourceType" f.nodeId (Entries.putNew "id" (.str (givenId f.nodeId f.position))
      (Entries.erase "d3fendClass" (Entries.erase "ontologyClass"
        (Entries.erase "sourceType" f.mapping)))) := by
  have hkept : (f.mapping.filter fun e =>
        e.1 ≠ "sourceType" ∧ e.1 ≠ "ontologyClass" ∧ e.1 ≠ "d3fendClass") =
      Entries.erase "d3fendClass" (Entries.erase "ontologyClass"
        (Entries.erase "sourceType" f.mapping)) := by
    unfold Entries.erase
    rw [List.filter_filter, List.filter_filter]
    apply List.filter_congr
    intro e _
    by_cases hsource : e.1 = "sourceType" <;> by_cases hclass : e.1 = "ontologyClass" <;>
      by_cases hformer : e.1 = "d3fendClass" <;> simp [hsource, hclass, hformer]
  unfold lifted givenId
  rw [hkept]

theorem lifts_lifted (f : Finding) : f.Lifts (lifted f.nodeId f.position f.mapping) := by
  rw [lifted_eq_erase]
  constructor
  · rw [Entries.get?_put, if_pos rfl]
  · rw [Entries.get?_put, if_neg (by decide), Entries.get?_putNew, if_pos rfl,
      Entries.get?_erase_of_ne (by decide), Entries.get?_erase_of_ne (by decide),
      Entries.get?_erase_of_ne (by decide)]
  · intro name hname
    simp only [supersededNames, List.mem_cons, List.not_mem_nil, or_false] at hname
    obtain rfl | rfl := hname
    · rw [Entries.get?_put, if_neg (by decide), Entries.get?_putNew, if_neg (by decide),
        Entries.get?_erase_of_ne (by decide), Entries.get?_erase_self]
    · rw [Entries.get?_put, if_neg (by decide), Entries.get?_putNew, if_neg (by decide),
        Entries.get?_erase_self]
  · intro name hsource hid hname
    simp only [supersededNames, List.mem_cons, List.not_mem_nil, or_false, not_or] at hname
    rw [Entries.get?_put, if_neg hsource, Entries.get?_putNew, if_neg hid,
      Entries.get?_erase_of_ne hname.2, Entries.get?_erase_of_ne hname.1,
      Entries.get?_erase_of_ne hsource]
  · intro hdistinct
    apply Entries.nodup_keys_put
    apply Entries.nodup_keys_putNew
    apply Entries.nodup_keys_erase
    apply Entries.nodup_keys_erase
    exact Entries.nodup_keys_erase _ hdistinct

end Mapping

section NodeType

variable {t : Fields}

/-- Of the mappings of a node type, those with a rule go up. -/
theorem foldl_lift {nodeId : Json} {mappings : List (Fields × Nat)} {start : Fields × List Fields} :
    (mappings.foldl (fun (fields, up) (mapping, position) =>
      if Entries.has "rule" mapping then (fields, up ++ [lifted nodeId position mapping])
      else (classFrom mapping fields, up)) start).2 =
      start.2 ++ mappings.filterMap fun (mapping, position) =>
        if Entries.has "rule" mapping then some (lifted nodeId position mapping) else none := by
  induction mappings generalizing start with
  | nil => exact (List.append_nil _).symm
  | cons m rest ih =>
    obtain ⟨mapping, position⟩ := m
    obtain ⟨fields, up⟩ := start
    rw [List.foldl_cons, ih, List.filterMap_cons]
    by_cases hrule : Entries.has "rule" mapping = true
    · simp [hrule]
    · simp [hrule]

theorem liftFrom_snd :
    (liftFrom t).2 = (findings t).map fun f => lifted f.nodeId f.position f.mapping := by
  have hid : memberOr (rename "allowedRelationships" "outgoingRelationships"
      (rename "d3fendClass" "ontologyClass" t)) "id" (.str "node") = nodeTypeId t := by
    unfold memberOr nodeTypeId memberOr
    rw [get?_rename_of_ne (by decide) (by decide), get?_rename_of_ne (by decide) (by decide)]
  have hmappings : objectsOf (memberOr (rename "allowedRelationships" "outgoingRelationships"
      (rename "d3fendClass" "ontologyClass" t)) "ontologyMappings" .null) = mappingsOf t := by
    unfold memberOr mappingsOf memberOr
    rw [get?_rename_of_ne (by decide) (by decide), get?_rename_of_ne (by decide) (by decide)]
  unfold liftFrom
  rw [foldl_lift, List.nil_append, hid, hmappings, findings, List.map_filterMap]
  apply List.filterMap_congr
  intro m _
  obtain ⟨mapping, position⟩ := m
  by_cases hrule : Entries.has "rule" mapping = true <;> simp [hrule]

theorem get?_id_classFrom (mapping : Fields) :
    Entries.get? "id" (classFrom mapping t) = Entries.get? "id" t := by
  unfold classFrom
  dsimp only
  split
  · rw [Entries.get?_put, if_neg (by decide)]
  · rfl

theorem get?_id_liftFrom : Entries.get? "id" (liftFrom t).1 = Entries.get? "id" t := by
  have hstart : Entries.get? "id" (Entries.erase "ontologyMappings"
      (rename "allowedRelationships" "outgoingRelationships"
        (rename "d3fendClass" "ontologyClass" t))) = Entries.get? "id" t := by
    rw [Entries.get?_erase_of_ne (by decide), get?_rename_of_ne (by decide) (by decide),
      get?_rename_of_ne (by decide) (by decide)]
  unfold liftFrom
  refine List.foldlRecOn
    (motive := fun (lifting : Fields × List Fields) =>
      Entries.get? "id" lifting.1 = Entries.get? "id" t) _ _ hstart ?_
  intro lifting h mapping _
  dsimp only
  split
  · exact h
  · exact (get?_id_classFrom mapping.1).trans h

end NodeType

section Ids

/-- A text is divided in one way at the last mark in it. -/
theorem eq_of_last_mark {α : Type} {mark : α} {x y d e : List α} (hd : mark ∉ d) (he : mark ∉ e)
    (h : x ++ mark :: d = y ++ mark :: e) : x = y ∧ d = e := by
  rcases List.append_eq_append_iff.mp h with ⟨mid, hy, hmid⟩ | ⟨mid, hx, hmid⟩
  · cases mid with
    | nil =>
      rw [List.append_nil] at hy
      exact ⟨hy.symm, (List.cons.inj hmid).2⟩
    | cons c mid =>
      obtain ⟨_, hd'⟩ := List.cons.inj hmid
      exact absurd (hd' ▸ List.mem_append_right mid List.mem_cons_self) hd
  · cases mid with
    | nil =>
      rw [List.append_nil] at hx
      exact ⟨hx, (List.cons.inj hmid).2.symm⟩
    | cons c mid =>
      obtain ⟨_, he'⟩ := List.cons.inj hmid
      exact absurd (he' ▸ List.mem_append_right mid List.mem_cons_self) he

theorem toList_givenId (a : String) (i : Nat) : (givenId (.str a) i).toList =
    (a.toList ++ "-mapping".toList) ++ '-' :: Nat.toDigits 10 i := by
  simp [givenId, Json.text, toString, Nat.repr]

/-- Node types and places are told apart by the ids that are given for them. -/
theorem givenId_injective :
    Function.Injective fun place : String × Nat => givenId (.str place.1) place.2 := by
  have hhyphen : ∀ i, '-' ∉ Nat.toDigits 10 i := by
    intro i hmem
    exact absurd (Nat.isDigit_of_mem_toDigits (by decide) (by decide) hmem) (by decide)
  rintro ⟨a, i⟩ ⟨b, j⟩ h
  have hlist := congrArg String.toList h
  simp only [toList_givenId] at hlist
  obtain ⟨hname, hplace⟩ := eq_of_last_mark (hhyphen i) (hhyphen j) hlist
  have ha : a = b := String.toList_inj.mp (List.append_cancel_right hname)
  have hi : i = j := by
    calc i
      _ = Nat.ofDigitChars 10 (Nat.toDigits 10 i) 0 := Nat.ofDigitChars_ten_toDigits.symm
      _ = Nat.ofDigitChars 10 (Nat.toDigits 10 j) 0 := by rw [hplace]
      _ = j := Nat.ofDigitChars_ten_toDigits
  rw [ha, hi]

end Ids

section Preset

variable {fields : Fields} {items : List Json}

theorem objectsOf_liftItem : objectsOf (.arr ((items.map liftItem).map Prod.fst)) =
    (objectsOf (.arr items)).map fun t => (liftFrom t).1 := by
  induction items with
  | nil => rfl
  | cons item rest ih =>
    cases item with
    | obj t => exact congrArg (List.cons (liftFrom t).1) ih
    | _ => exact ih

theorem flatMap_liftItem : (items.map liftItem).flatMap Prod.snd =
    (objectsOf (.arr items)).flatMap fun t => (liftFrom t).2 := by
  induction items with
  | nil => rfl
  | cons item rest ih =>
    cases item with
    | obj t => exact congrArg ((liftFrom t).2 ++ ·) ih
    | _ => exact ih

/-- The node types of a preset. -/
def nodeTypesOf (fields : Fields) : List Fields := objectsOf (memberOr fields "nodeTypes" .null)

theorem objectsOf_liftSection : objectsOf ((liftSection fields).1.getD .null) =
    (nodeTypesOf fields).map fun t => (liftFrom t).1 := by
  unfold liftSection nodeTypesOf memberOr
  cases Entries.get? "nodeTypes" fields with
  | none => rfl
  | some v =>
    cases v with
    | arr items => exact objectsOf_liftItem
    | _ => rfl

theorem liftSection_snd :
    (liftSection fields).2 = (nodeTypesOf fields).flatMap fun t => (liftFrom t).2 := by
  unfold liftSection nodeTypesOf memberOr
  cases Entries.get? "nodeTypes" fields with
  | none => rfl
  | some v =>
    cases v with
    | arr items => exact flatMap_liftItem
    | _ => rfl

theorem migrateRaw_lift : migrateRaw (.obj fields) (.str "1.1.0") (.str currentVersion) =
    .ok (.ok (.obj (Entries.put "version" (.str currentVersion)
      (fillDerivations (liftMappings fields))))) := by
  have hsteps : stepsBetween (.str "1.1.0") (.str currentVersion) = .ok ((chain.take 3).drop 2) :=
    stepsBetween_of_places (by decide) (by decide) (by decide)
  apply (migrateRaw_of_steps hsteps).mpr
  change (liftOntology (.obj fields) >>= _) = _
  rw [liftOntology_obj]
  rfl

/-- No rule is lost, repeated, moved or given to another node type on the way from format 1.1.0 to
the current one. The mappings at the top come first as they were, and after them, one for one and in
the order of the node types and of the mappings in each, those that were found with a rule. Ids that
are given to them tell node types and places apart. The node types are the ones that there were,
with nothing left of their mappings and no former names. -/
theorem migrateRaw_lifts (fields : Fields) : ∃ migrated,
    migrateRaw (.obj fields) (.str "1.1.0") (.str currentVersion) = .ok (.ok (.obj migrated)) ∧
    (∃ lifted, Entries.get? "ontologyMappings" migrated =
        some (.arr (topMappings fields ++ lifted.map .obj)) ∧
      List.Forall₂ Finding.Lifts ((nodeTypesOf fields).flatMap findings) lifted) ∧
    (Function.Injective fun place : String × Nat => givenId (.str place.1) place.2) ∧
    List.Forall₂ (fun t t' => Bare t' ∧ Entries.get? "id" t' = Entries.get? "id" t)
      (nodeTypesOf fields) (nodeTypesOf migrated) := by
  refine ⟨_, migrateRaw_lift, ⟨(liftSection fields).2, ?_, ?_⟩, givenId_injective, ?_⟩
  · rw [Entries.get?_put, if_neg (by decide), get?_fillDerivations (by decide),
      mappings_liftMappings]
  · simp only [liftSection_snd, liftFrom_snd, ← List.map_flatMap]
    rw [List.forall₂_map_right_iff]
    exact List.forall₂_same.mpr fun f _ => lifts_lifted f
  · have hsection : nodeTypesOf (Entries.put "version" (.str currentVersion)
        (fillDerivations (liftMappings fields))) =
        (nodeTypesOf fields).map fun t => (liftFrom t).1 := by
      rw [← objectsOf_liftSection, nodeTypesOf, memberOr, Entries.get?_put, if_neg (by decide),
        get?_fillDerivations (by decide), nodeTypes_liftMappings]
    rw [hsection, List.forall₂_map_right_iff]
    exact List.forall₂_same.mpr fun t _ => ⟨bare_liftFrom, get?_id_liftFrom⟩

end Preset

end Migration

end GraphWorkbench

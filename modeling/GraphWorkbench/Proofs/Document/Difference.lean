import GraphWorkbench.Document.Difference
import GraphWorkbench.Proofs.Document.Reachable
import GraphWorkbench.Proofs.Sameness
/-!
What a difference says of two documents. Every key on which they differ is listed once, in the list
that says how they differ there, so that the one document comes out of the other when just the listed
keys are changed. Asked the other way round, the same keys are listed with added and removed ones
exchanged.
-/
namespace GraphWorkbench

/-- A comparison is reflexive and symmetric on values of a kind. -/
structure Equates {α : Type} (P : α → Prop) (same : α → α → Bool) : Prop where
  refl : ∀ a, P a → same a a = true
  symm : ∀ a b, P a → P b → same a b = true → same b a = true

/-! Elements with proper properties are compared as values are. -/

theorem Json.same_ofTable {s t : Table Json} :
    (ofTable s).same (ofTable t) = s.sameBy Json.same t := by
  rw [Bool.eq_iff_iff, Table.sameBy_iff_matches]
  exact same_obj_iff s.nodup t.nodup

theorem Json.equates_same : Equates Json.Proper Json.same :=
  ⟨fun _ => same_self, fun _ _ => same_symm⟩

theorem Position.equates_same : Equates (fun _ => True) Position.same := by
  constructor
  · intro p _
    rw [same, Extended.alike_self, Extended.alike_self]
    rfl
  · intro p q _ _ h
    rw [same, Extended.alike_comm q.x.value, Extended.alike_comm q.y.value]
    exact h

def Node.Proper (n : Node) : Prop := (Json.ofTable n.properties).Proper

def Edge.Proper (e : Edge) : Prop := (Json.ofTable e.properties).Proper

/-- No object in the properties of an element names a member twice. -/
structure Document.Proper (d : Document) : Prop where
  nodes : ∀ n ∈ d.nodes.values, n.Proper
  edges : ∀ e ∈ d.edges.values, e.Proper

instance : DecidablePred Node.Proper := fun n =>
  inferInstanceAs (Decidable (Json.ofTable n.properties).Proper)

instance : DecidablePred Edge.Proper := fun e =>
  inferInstanceAs (Decidable (Json.ofTable e.properties).Proper)

instance : DecidablePred Document.Proper := fun d =>
  decidable_of_iff ((∀ n ∈ d.nodes.values, n.Proper) ∧ ∀ e ∈ d.edges.values, e.Proper)
    ⟨fun h => ⟨h.1, h.2⟩, fun h => ⟨h.nodes, h.edges⟩⟩

theorem Node.equates_same : Equates Node.Proper Node.same := by
  constructor
  · intro n hn
    have hproperties := Json.equates_same.refl _ hn
    have hposition := Position.equates_same.refl n.position trivial
    rw [Json.same_ofTable] at hproperties
    simp [same, hproperties, hposition]
  · intro n n' hn hn' h
    simp only [same, ← Json.same_ofTable, Bool.and_eq_true, beq_iff_eq] at h ⊢
    obtain ⟨⟨⟨hid, htype⟩, hproperties⟩, hposition⟩ := h
    exact ⟨⟨⟨hid.symm, htype.symm⟩, Json.equates_same.symm _ _ hn hn' hproperties⟩,
      Position.equates_same.symm _ _ trivial trivial hposition⟩

theorem Edge.equates_same : Equates Edge.Proper Edge.same := by
  constructor
  · intro e he
    have hproperties := Json.equates_same.refl _ he
    rw [Json.same_ofTable] at hproperties
    simp [same, hproperties]
  · intro e e' he he' h
    simp only [same, ← Json.same_ofTable, Bool.and_eq_true, beq_iff_eq] at h ⊢
    obtain ⟨⟨⟨⟨⟨hid, htype⟩, hsource⟩, htarget⟩, hproperties⟩, hinferred⟩ := h
    exact ⟨⟨⟨⟨⟨hid.symm, htype.symm⟩, hsource.symm⟩, htarget.symm⟩,
      Json.equates_same.symm _ _ he he' hproperties⟩, hinferred.symm⟩

namespace Table

variable {α : Type} {P : α → Prop} {same : α → α → Bool} {old new t : Table α} {key : String}

/-- A table with what another one has under some keys. -/
def revised (new t : Table α) (ks : List String) : Table α :=
  ks.foldl (fun t k => match new.get? k with
    | some v => t.put k v
    | none => t) t

theorem get?_revised {ks : List String} : (revised new t ks).get? key =
    if key ∈ ks then (new.get? key).or (t.get? key) else t.get? key := by
  unfold revised
  induction ks generalizing t with
  | nil => simp
  | cons k rest ih =>
    rw [List.foldl_cons, ih]
    cases hk : new.get? k with
    | none =>
      by_cases hkey : key = k
      · subst hkey
        simp [hk]
      · simp [hkey]
    | some v =>
      by_cases hkey : key = k
      · subst hkey
        simp [hk]
      · simp [hkey]

theorem get?_eq_none_iff : t.get? key = none ↔ key ∉ t.keys := by
  rw [← has_eq_false_iff, ← Option.isNone_iff_eq_none, ← Option.isSome_eq_false_iff]
  rfl

theorem mem_added : key ∈ (old.difference same new).added ↔ key ∈ new.keys ∧ key ∉ old.keys := by
  rw [difference, List.mem_filter, Bool.not_eq_true', has_eq_false_iff]

theorem mem_removed :
    key ∈ (old.difference same new).removed ↔ key ∈ old.keys ∧ key ∉ new.keys := by
  rw [difference, List.mem_filter, Bool.not_eq_true', has_eq_false_iff]

theorem mem_modified : key ∈ (old.difference same new).modified ↔
    ∃ a b, old.get? key = some a ∧ new.get? key = some b ∧ same b a = false := by
  rw [difference, List.mem_map]
  constructor
  · rintro ⟨⟨k, b⟩, hmem, rfl⟩
    obtain ⟨hentry, hdiffers⟩ := List.mem_filter.mp hmem
    split at hdiffers
    next a ha => exact ⟨a, b, ha, get?_of_mem hentry, by simpa using hdiffers⟩
    next => exact nomatch hdiffers
  · rintro ⟨a, b, ha, hb, hdiffers⟩
    refine ⟨(key, b), List.mem_filter.mpr ⟨Entries.mem_of_get? hb, ?_⟩, rfl⟩
    simp [ha, hdiffers]

/-- On a common key that is not listed as modified, the tables have the same. -/
theorem same_of_notMem_modified {a b : α} (ha : old.get? key = some a) (hb : new.get? key = some b)
    (h : key ∉ (old.difference same new).modified) : same b a = true := by
  by_contra hdiffers
  exact h (mem_modified.mpr ⟨a, b, ha, hb, Bool.eq_false_iff.mpr hdiffers⟩)

end Table

/-- A difference says exactly on which keys two tables differ, and the difference asked the other way
round says the same of them. -/
structure TableDifference.Exact {α : Type} (same : α → α → Bool) (old new : Table α)
    (d back : TableDifference) : Prop where
  added : ∀ key, key ∈ d.added ↔ key ∈ new.keys ∧ key ∉ old.keys
  removed : ∀ key, key ∈ d.removed ↔ key ∈ old.keys ∧ key ∉ new.keys
  modified : ∀ key, key ∈ d.modified ↔
    ∃ a b, old.get? key = some a ∧ new.get? key = some b ∧ same a b = false
  added_order : d.added.Sublist new.keys
  removed_order : d.removed.Sublist old.keys
  modified_order : d.modified.Sublist new.keys
  distinct : (d.added ++ d.removed ++ d.modified).Nodup
  revised : (Table.revised new (d.removed.foldl Table.erase old) (d.added ++ d.modified)).sameBy same
    new = true
  back_added : back.added = d.removed
  back_removed : back.removed = d.added
  back_modified : back.modified.Perm d.modified
  isEmpty_iff : d.isEmpty = true ↔ old.Matches (fun a b => same a b = true) new

namespace Table

variable {α : Type} {P : α → Prop} {same : α → α → Bool} {old new : Table α}

section Lists

theorem sublist_modified : (old.difference same new).modified.Sublist new.keys :=
  List.filter_sublist.map Prod.fst

/-- No key is listed twice, be it in one list or in two. -/
theorem nodup_difference : let d := old.difference same new
    (d.added ++ d.removed ++ d.modified).Nodup := by
  intro d
  have hadded : d.added.Nodup := new.nodup.filter _
  have hremoved : d.removed.Nodup := old.nodup.filter _
  have hmodified : d.modified.Nodup := new.nodup.sublist sublist_modified
  rw [List.append_assoc, List.nodup_append, List.nodup_append]
  refine ⟨hadded, ⟨hremoved, hmodified, ?_⟩, ?_⟩
  · rintro key hr _ hm rfl
    obtain ⟨a, b, _, hb, _⟩ := mem_modified.mp hm
    exact (mem_removed.mp hr).2 ((has_iff_mem_keys new key).mp (has_iff_exists.mpr ⟨b, hb⟩))
  · rintro key ha _ hrest rfl
    rcases List.mem_append.mp hrest with hr | hm
    · exact (mem_removed.mp hr).2 (mem_added.mp ha).1
    · obtain ⟨a, b, hold, _, _⟩ := mem_modified.mp hm
      exact (mem_added.mp ha).2 ((has_iff_mem_keys old key).mp (has_iff_exists.mpr ⟨a, hold⟩))

end Lists

theorem matches_self (equates : Equates P same) {t : Table α} (h : ∀ a ∈ t.values, P a) :
    t.Matches (fun a b => same a b = true) t :=
  .of_entries rfl fun e he =>
    ⟨e.2, get?_of_mem he, equates.refl e.2 (h e.2 (mem_values.mpr ⟨e.1, he⟩))⟩

variable (equates : Equates P same) (hold : ∀ a ∈ old.values, P a) (hnew : ∀ b ∈ new.values, P b)

include equates hold hnew

theorem same_eq_swap {key : String} {a b : α} (ha : old.get? key = some a)
    (hb : new.get? key = some b) : same a b = same b a := by
  have hPa := hold a (mem_values_of_get? ha)
  have hPb := hnew b (mem_values_of_get? hb)
  rw [Bool.eq_iff_iff]
  exact ⟨equates.symm a b hPa hPb, equates.symm b a hPb hPa⟩

/-- The keys that are modified are the same ones either way. -/
theorem mem_modified_swap {key : String} : key ∈ (old.difference same new).modified ↔
    ∃ a b, old.get? key = some a ∧ new.get? key = some b ∧ same a b = false := by
  rw [mem_modified]
  refine exists_congr fun a => exists_congr fun b => and_congr_right fun ha =>
    and_congr_right fun hb => ?_
  rw [same_eq_swap equates hold hnew ha hb]

theorem modified_swap :
    (new.difference same old).modified.Perm (old.difference same new).modified := by
  refine (List.perm_ext_iff_of_nodup (old.nodup.sublist sublist_modified)
    (new.nodup.sublist sublist_modified)).mpr fun key => ?_
  rw [mem_modified, mem_modified_swap equates hold hnew]
  constructor
  · rintro ⟨b, a, hb, ha, hdiffers⟩
    exact ⟨a, b, ha, hb, hdiffers⟩
  · rintro ⟨a, b, ha, hb, hdiffers⟩
    exact ⟨b, a, hb, ha, hdiffers⟩

/-- The old table with its listed keys changed is the new one, but for the order. -/
theorem matches_revised : let d := old.difference same new
    (revised new (d.removed.foldl erase old) (d.added ++ d.modified)).Matches
      (fun a b => same a b = true) new := by
  intro d
  apply matches_iff_rel.mpr
  intro key
  rw [get?_revised, get?_foldl_erase]
  by_cases hlisted : key ∈ d.added ++ d.modified
  · rw [if_pos hlisted]
    obtain ⟨b, hb⟩ : ∃ b, new.get? key = some b := by
      rcases List.mem_append.mp hlisted with ha | hm
      · exact has_iff_exists.mp ((has_iff_mem_keys new key).mpr (mem_added.mp ha).1)
      · obtain ⟨_, b, _, hb, _⟩ := mem_modified.mp hm
        exact ⟨b, hb⟩
    rw [hb, Option.some_or]
    exact .some (equates.refl b (hnew b (mem_values_of_get? hb)))
  · rw [if_neg hlisted]
    obtain ⟨hadded, hmodified⟩ := not_or.mp (fun h => hlisted (List.mem_append.mpr h))
    by_cases hremoved : key ∈ d.removed
    · rw [if_pos hremoved, get?_eq_none_iff.mpr (mem_removed.mp hremoved).2]
      exact .none
    · rw [if_neg hremoved]
      -- a key that is not listed is common to both tables, or in neither
      cases ha : old.get? key with
      | none =>
        have habsent : key ∉ new.keys := fun h =>
          hadded (mem_added.mpr ⟨h, get?_eq_none_iff.mp ha⟩)
        rw [get?_eq_none_iff.mpr habsent]
        exact .none
      | some a =>
        cases hb : new.get? key with
        | none =>
          have hkey : key ∈ old.keys := (has_iff_mem_keys old key).mp (has_iff_exists.mpr ⟨a, ha⟩)
          exact absurd (mem_removed.mpr ⟨hkey, get?_eq_none_iff.mp hb⟩) hremoved
        | some b =>
          apply Option.Rel.some
          rw [same_eq_swap equates hold hnew ha hb]
          exact same_of_notMem_modified ha hb hmodified

theorem isEmpty_difference_iff : (old.difference same new).isEmpty = true ↔
    old.Matches (fun a b => same a b = true) new := by
  simp only [TableDifference.isEmpty, Bool.and_eq_true, List.isEmpty_iff]
  constructor
  · rintro ⟨⟨hadded, hremoved⟩, hmodified⟩
    have hmatch := matches_revised equates hold hnew
    simpa [hadded, hremoved, hmodified, revised] using hmatch
  · intro h
    refine ⟨⟨?_, ?_⟩, ?_⟩
    · refine List.eq_nil_iff_forall_not_mem.mpr fun key hkey => ?_
      obtain ⟨hthere, habsent⟩ := mem_added.mp hkey
      exact habsent (h.mem_keys.mp hthere)
    · refine List.eq_nil_iff_forall_not_mem.mpr fun key hkey => ?_
      obtain ⟨hthere, habsent⟩ := mem_removed.mp hkey
      exact habsent (h.mem_keys.mpr hthere)
    · refine List.eq_nil_iff_forall_not_mem.mpr fun key hkey => ?_
      obtain ⟨a, b, ha, hb, hdiffers⟩ := (mem_modified_swap equates hold hnew).mp hkey
      rw [h.values key a b ha hb] at hdiffers
      exact nomatch hdiffers

theorem difference_exact :
    (old.difference same new).Exact same old new (new.difference same old) where
  added _ := mem_added
  removed _ := mem_removed
  modified _ := mem_modified_swap equates hold hnew
  added_order := List.filter_sublist
  removed_order := List.filter_sublist
  modified_order := sublist_modified
  distinct := nodup_difference
  revised := sameBy_iff_matches.mpr (matches_revised equates hold hnew)
  back_added := rfl
  back_removed := rfl
  back_modified := modified_swap equates hold hnew
  isEmpty_iff := isEmpty_difference_iff equates hold hnew

end Table

namespace Document

variable {d old new : Document}

theorem unchanged_iff (hold : old.Proper) (hnew : new.Proper) :
    (old.difference new).unchanged = true ↔
      old.nodes.Matches (fun n n' => n.same n' = true) new.nodes ∧
      old.edges.Matches (fun e e' => e.same e' = true) new.edges := by
  rw [Difference.unchanged, Bool.and_eq_true, difference,
    Table.isEmpty_difference_iff Node.equates_same hold.nodes hnew.nodes,
    Table.isEmpty_difference_iff Edge.equates_same hold.edges hnew.edges]

theorem unchanged_self (h : d.Proper) : (d.difference d).unchanged = true :=
  (unchanged_iff h h).mpr
    ⟨Table.matches_self Node.equates_same h.nodes, Table.matches_self Edge.equates_same h.edges⟩

end Document

namespace Store

variable {s : Store} {m : Mutation}

/-- A change that was committed can be taken back, and then the document is what it was. -/
theorem Tracks.undo_of_apply {t : Timeline} (h : s.Tracks t) (committed : (s.apply m).2 = .ok true) :
    (s.apply m).1.undo.2 = .ok true ∧ (s.apply m).1.undo.1.document = s.document := by
  obtain ⟨htracks, hanswer⟩ := h.apply m
  obtain ⟨d, ht⟩ : ∃ d, (t.apply s.preset s.history.limit m).1 = t.commit s.history.limit d := by
    rw [hanswer] at committed
    unfold Timeline.apply at committed ⊢
    cases hplan : Draft.plan s.preset t.present m with
    | error stop =>
      rw [hplan] at committed
      exact nomatch committed
    | ok result =>
      obtain ⟨patch, d⟩ := result
      rw [hplan] at committed
      dsimp only at committed ⊢
      split at committed
      · exact nomatch committed
      next hpatch => exact ⟨d, congrArg Prod.fst (if_neg hpatch)⟩
  rw [ht] at htracks
  -- at least one commit is kept, so the present document is now the latest of the earlier ones
  obtain ⟨limit, hlimit⟩ := Nat.exists_eq_succ_of_ne_zero (Nat.ne_of_gt s.history.limit_pos)
  have hpast : (t.commit s.history.limit d).past = t.present :: t.past.take limit := by
    rw [Timeline.commit, hlimit]
    rfl
  have hback : (t.commit s.history.limit d).back? =
      some ⟨t.past.take limit, t.present, [d]⟩ := by
    rw [Timeline.commit, hlimit]
    rfl
  obtain ⟨hundone, hanswer⟩ := htracks.undo
  rw [hback] at hundone hanswer
  exact ⟨Outcome.ofFault_eq_ok.mp hanswer, hundone.present.trans h.present.symm⟩

end Store

/-- A difference is exact and dual. For nodes and for edges, it lists every key on which the
documents differ and no other, each once, and in the order of the document that has it; the old
document becomes the new one, up to order and sameness, when just the listed keys are changed; and
the difference the other way round has the added and removed keys exchanged and the same modified
ones. Nothing is listed exactly when both documents have the same elements under the same keys. So
it is after a committed change that was taken back, in whatever way the store came about. -/
theorem Document.difference_told :
    (∀ {old new : Document}, old.Proper → new.Proper →
      (old.difference new).nodes.Exact Node.same old.nodes new.nodes (new.difference old).nodes ∧
      (old.difference new).edges.Exact Edge.same old.edges new.edges (new.difference old).edges ∧
      ((old.difference new).unchanged = true ↔
        old.nodes.Matches (fun n n' => n.same n' = true) new.nodes ∧
        old.edges.Matches (fun e e' => e.same e' = true) new.edges)) ∧
    ∀ {p : Preset} {s : Store} {m : Mutation}, s.Reachable p → s.document.Proper →
      (s.apply m).2 = .ok true →
        (s.apply m).1.undo.2 = .ok true ∧
        (s.document.difference (s.apply m).1.undo.1.document).unchanged = true := by
  constructor
  · intro old new hold hnew
    exact ⟨Table.difference_exact Node.equates_same hold.nodes hnew.nodes,
      Table.difference_exact Edge.equates_same hold.edges hnew.edges, unchanged_iff hold hnew⟩
  · intro p s m reachable proper committed
    obtain ⟨t, htracks, _⟩ := reachable.invariant.2
    obtain ⟨hanswer, hdocument⟩ := htracks.undo_of_apply committed
    rw [hdocument]
    exact ⟨hanswer, unchanged_self proper⟩

/-- A count of one stays the same when it is written as a truth value, and a count of two does not. A
node goes and another comes, and taking back a node that was added leaves no difference. -/
theorem Document.difference_told_recount :
    let host (id : String) (count : Json) : Node :=
      { id, typeId := "host", properties := .ofEntries [("count", .obj [("of", count)])] }
    let net (hosts : List Node) : Document :=
      { metadata := ⟨"net", "2.0.0", untitled⟩, nodes := .ofEntries (hosts.map fun n => (n.id, n)) }
    let old := net [host "a" (.int 1), host "b" (.int 2), host "c" .null]
    let new := net [host "d" .null, host "b" (.bool true), host "a" (.bool true)]
    let s := Store.opened Library.topology
    let m : Mutation := .addNode { id := "a", typeId := "cloud" }
    old.Proper ∧ new.Proper ∧ (s.apply m).2 = .ok true ∧
      (old.difference new).nodes = ⟨["d"], ["c"], ["b"]⟩ ∧
      (old.difference new).nodes.Exact Node.same old.nodes new.nodes (new.difference old).nodes ∧
      ¬ old.nodes.Matches (fun n n' => n.same n' = true) new.nodes ∧
      (s.apply m).1.undo.2 = .ok true ∧
      (s.document.difference (s.apply m).1.undo.1.document).unchanged = true := by
  intro host net old new s m
  have hold : old.Proper := by decide
  have hnew : new.Proper := by decide
  have committed : (s.apply m).2 = .ok true := by decide
  have created : Store.create Library.topology (.blank Library.topology untitled) (some 100)
      { limit := 5 } = .ok s := rfl
  have reachable : s.Reachable Library.topology := .blank (by decide) created
  have hlisted : (old.difference new).nodes = ⟨["d"], ["c"], ["b"]⟩ := by decide +kernel
  obtain ⟨hexact, _, hunchanged⟩ := difference_told.1 hold hnew
  obtain ⟨hanswer, hback⟩ := difference_told.2 reachable (by decide) committed
  have hdiffer : ¬ old.nodes.Matches (fun n n' => n.same n' = true) new.nodes := by
    rw [← hexact.isEmpty_iff, hlisted]
    decide
  exact ⟨hold, hnew, committed, hlisted, hexact, hdiffer, hanswer, hback⟩

end GraphWorkbench

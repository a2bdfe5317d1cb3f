import GraphWorkbench.Table
import Mathlib.Data.List.Basic
/-!
Where the entries of a table stand. A table is seen as the entries before a key, the entry of the
key, and the entries after it; in that view each operation says what it does to the order.
-/
namespace GraphWorkbench

universe u
variable {α : Type u} {key : String} {value old : α} {entries before after : List (String × α)}

namespace Entries

theorem keys_append (a b : List (String × α)) : keys (a ++ b) = keys a ++ keys b :=
  List.map_append

theorem put_of_notMem (h : key ∉ keys entries) :
    put key value entries = entries ++ [(key, value)] := by
  induction entries with
  | nil => rfl
  | cons e rest ih =>
    obtain ⟨k, v⟩ := e
    have hk : k ≠ key := fun he => h (by simp [keys, he])
    have hr : key ∉ keys rest := fun hm => h (List.mem_cons_of_mem _ hm)
    rw [put, if_neg hk, ih hr, List.cons_append]

/-- Entries under new and distinct keys are added as they are. -/
theorem merge_of_nodup {under upper : List (String × α)} (h : (keys (under ++ upper)).Nodup) :
    merge under upper = under ++ upper := by
  unfold merge
  induction upper generalizing under with
  | nil => simp
  | cons e rest ih =>
    have hn : e.1 ∉ keys under := by
      rw [keys_append, List.nodup_append] at h
      exact fun hm => h.2.2 _ hm e.1 (by simp [keys]) rfl
    rw [List.foldl_cons, put_of_notMem hn, ih (by simpa using h)]
    simp

theorem put_at (h : key ∉ keys before) :
    put key value (before ++ (key, old) :: after) = before ++ (key, value) :: after := by
  induction before with
  | nil => simp [put]
  | cons e rest ih =>
    obtain ⟨k, v⟩ := e
    have hk : k ≠ key := fun he => h (by simp [keys, he])
    have hr : key ∉ keys rest := fun hm => h (List.mem_cons_of_mem _ hm)
    rw [List.cons_append, put, if_neg hk, ih hr, List.cons_append]

theorem erase_of_notMem (h : key ∉ keys entries) : erase key entries = entries := by
  apply List.filter_eq_self.mpr
  intro e he
  have hk : e.1 ≠ key := fun hk => h (hk ▸ List.mem_map_of_mem he)
  simpa using hk

theorem erase_at (hb : key ∉ keys before) (ha : key ∉ keys after) :
    erase key (before ++ (key, value) :: after) = before ++ after := by
  have hk : erase key ((key, value) :: after) = erase key after := by simp [erase]
  calc erase key (before ++ (key, value) :: after)
      = erase key before ++ erase key ((key, value) :: after) := List.filter_append ..
    _ = before ++ after := by rw [hk, erase_of_notMem hb, erase_of_notMem ha]

theorem get?_at (h : key ∉ keys before) :
    get? key (before ++ (key, value) :: after) = some value := by
  induction before with
  | nil => simp [get?]
  | cons e rest ih =>
    obtain ⟨k, v⟩ := e
    have hk : k ≠ key := fun he => h (by simp [keys, he])
    have hr : key ∉ keys rest := fun hm => h (List.mem_cons_of_mem _ hm)
    rw [List.cons_append, get?, if_neg hk, ih hr]

theorem exists_at_of_get? (h : get? key entries = some value) :
    ∃ before after, entries = before ++ (key, value) :: after := by
  induction entries with
  | nil => simp [get?] at h
  | cons e rest ih =>
    obtain ⟨k, v⟩ := e
    by_cases hk : k = key
    · simp only [get?, hk, if_true, Option.some.injEq] at h
      exact ⟨[], rest, by simp [hk, h]⟩
    · simp only [get?, hk, if_false] at h
      obtain ⟨before, after, he⟩ := ih h
      exact ⟨(k, v) :: before, after, by simp [he]⟩

theorem mem_of_get? (h : get? key entries = some value) : (key, value) ∈ entries := by
  obtain ⟨before, after, rfl⟩ := exists_at_of_get? h
  simp

theorem mem_put {e : String × α} (h : e ∈ put key value entries) :
    e = (key, value) ∨ e ∈ entries := by
  induction entries with
  | nil => exact .inl (List.mem_singleton.mp h)
  | cons head rest ih =>
    obtain ⟨k, v⟩ := head
    rw [put] at h
    split at h
    next hk =>
      rw [hk, List.mem_cons] at h
      exact h.imp_right (List.mem_cons_of_mem _)
    next hk =>
      rcases List.mem_cons.mp h with rfl | hrest
      · exact .inr List.mem_cons_self
      · exact (ih hrest).imp_right (List.mem_cons_of_mem _)

theorem get?_erase_of_ne {other : String} (h : other ≠ key) :
    get? other (erase key entries) = get? other entries := by
  induction entries with
  | nil => rfl
  | cons head rest ih =>
    obtain ⟨k, v⟩ := head
    by_cases hk : k = key
    · have ho : k ≠ other := fun he => h (he ▸ hk)
      have hskip : erase key ((k, v) :: rest) = erase key rest := by simp [erase, hk]
      rw [hskip, ih, get?, if_neg ho]
    · have hkeep : erase key ((k, v) :: rest) = (k, v) :: erase key rest := by simp [erase, hk]
      rw [hkeep, get?, get?, ih]

/-- A key that is there keeps its value. -/
theorem get?_putNew {other : String} :
    get? other (putNew key value entries) =
      if other = key then some ((get? key entries).getD value) else get? other entries := by
  unfold putNew
  cases hget : get? key entries with
  | some v =>
    have hhas : has key entries = true := by simp [has, hget]
    rw [if_pos hhas]
    split
    next hkey => rw [hkey, hget, Option.getD_some]
    next => rfl
  | none =>
    have hhas : ¬ has key entries = true := by simp [has, hget]
    have hnew : key ∉ keys entries := by simpa [has, get?_isSome_iff] using hhas
    rw [if_neg hhas, ← put_of_notMem hnew, get?_put, Option.getD_none]

/-- Of two tables, one written over the other, the upper one answers first. -/
theorem get?_merge {under upper : List (String × α)} (distinct : (keys upper).Nodup) :
    get? key (merge under upper) = (get? key upper).or (get? key under) := by
  induction upper generalizing under with
  | nil => rfl
  | cons e rest ih =>
    obtain ⟨k, v⟩ := e
    obtain ⟨hk, hrest⟩ := List.nodup_cons.mp distinct
    change get? key (merge (put k v under) rest) = _
    rw [ih hrest, get?_put, get?]
    by_cases hkey : key = k
    · -- the rest does not write to this key again
      have hnone : get? key rest = none := by
        rw [← Option.not_isSome_iff_eq_none, get?_isSome_iff, hkey]
        exact hk
      rw [hnone, if_pos hkey, if_pos hkey.symm]
      rfl
    · rw [if_neg hkey, if_neg fun h => hkey h.symm]

/-- New keys come after the old ones, in the order in which they were given. -/
theorem keys_merge {under upper : List (String × α)} (distinct : (keys upper).Nodup) :
    keys (merge under upper) = keys under ++ (keys upper).filter (· ∉ keys under) := by
  induction upper generalizing under with
  | nil => exact (List.append_nil _).symm
  | cons e rest ih =>
    obtain ⟨k, v⟩ := e
    obtain ⟨hk, hrest⟩ := List.nodup_cons.mp distinct
    change keys (merge (put k v under) rest) = keys under ++ (k :: keys rest).filter _
    rw [ih hrest, keys_put]
    by_cases hmem : k ∈ keys under
    · rw [if_pos hmem, List.filter_cons_of_neg (by simpa using hmem)]
    · rw [if_neg hmem, List.filter_cons_of_pos (by simpa using hmem), List.append_assoc,
        List.singleton_append]
      -- none of the keys to come is the one that came in last
      have hothers : (keys rest).filter (· ∉ keys under ++ [k]) =
          (keys rest).filter (· ∉ keys under) := by
        apply List.filter_congr
        intro k' hk'
        have hne : k' ≠ k := fun same => hk (same ▸ hk')
        simp [hne]
      rw [hothers]

theorem put_ne_nil : put key value entries ≠ [] := by
  cases entries with
  | nil => simp [put]
  | cons e rest =>
    rw [put]
    split <;> simp

theorem merge_ne_nil {under upper : List (String × α)} (h : under ≠ []) :
    merge under upper ≠ [] := by
  unfold merge
  induction upper generalizing under with
  | nil => exact h
  | cons e rest ih => exact ih put_ne_nil

end Entries

namespace Table

open Entries

variable {t : Table α}

theorem has_eq_false_iff : t.has key = false ↔ key ∉ t.keys := by
  rw [← has_iff_mem_keys, Bool.not_eq_true]

theorem has_iff_exists : t.has key = true ↔ ∃ value, t.get? key = some value :=
  Option.isSome_iff_exists

theorem has_put {other : String} :
    (t.put key value).has other = true ↔ other = key ∨ t.has other = true := by
  simp only [has_iff_exists, get?_put]
  by_cases hkey : other = key <;> simp [hkey]

/-- A key stands once: neither before nor after its place. -/
theorem notMem_of_at (h : t.entries = before ++ (key, value) :: after) :
    key ∉ Entries.keys before ∧ key ∉ Entries.keys after := by
  have hn := t.nodup
  rw [h, keys_append, List.nodup_append] at hn
  constructor
  · exact fun hm => hn.2.2 _ hm key (by simp [Entries.keys]) rfl
  · have hc : (key :: Entries.keys after).Nodup := hn.2.1
    exact (List.nodup_cons.mp hc).1

theorem get?_of_at (h : t.entries = before ++ (key, value) :: after) : t.get? key = some value := by
  rw [get?, h, get?_at (notMem_of_at h).1]

theorem get?_of_mem (h : (key, value) ∈ t.entries) : t.get? key = some value := by
  obtain ⟨before, after, he⟩ := List.append_of_mem h
  exact get?_of_at he

theorem has_of_at (h : t.entries = before ++ (key, value) :: after) : t.has key = true :=
  has_iff_exists.mpr ⟨value, get?_of_at h⟩

theorem exists_at (h : t.get? key = some value) :
    ∃ before after, t.entries = before ++ (key, value) :: after :=
  exists_at_of_get? h

/-- A key stands at one place. -/
theorem split_unique {before' after' : List (String × α)} {value' : α}
    (h : t.entries = before ++ (key, value) :: after)
    (h' : t.entries = before' ++ (key, value') :: after') :
    before = before' ∧ value = value' ∧ after = after' := by
  have hvalue : value = value' := Option.some.inj ((get?_of_at h).symm.trans (get?_of_at h'))
  have hbefore : (key, value') ∉ before := fun hm => (notMem_of_at h).1 (List.mem_map_of_mem hm)
  have hafter : (key, value') ∉ after := fun hm => (notMem_of_at h).2 (List.mem_map_of_mem hm)
  have hsplit := (List.append_cons_inj_of_notMem hbefore hafter).mp (h.symm.trans h')
  exact ⟨hsplit.1, hvalue, hsplit.2.2⟩

theorem indexOf?_of_at (h : t.entries = before ++ (key, value) :: after) :
    t.indexOf? key = some before.length := by
  have hb := (notMem_of_at h).1
  have hnone : (Entries.keys before).findIdx? (· == key) = none := by
    rw [List.findIdx?_eq_none_iff]
    intro k hk
    simpa using fun he : k = key => hb (he ▸ hk)
  rw [indexOf?, keys, h, keys_append, List.findIdx?_append, hnone]
  simp [Entries.keys, List.findIdx?_cons]

theorem entries_put_at (h : t.entries = before ++ (key, old) :: after) :
    (t.put key value).entries = before ++ (key, value) :: after := by
  change Entries.put key value t.entries = _
  rw [h, put_at (notMem_of_at h).1]

theorem entries_put_new (h : t.has key = false) :
    (t.put key value).entries = t.entries ++ [(key, value)] :=
  put_of_notMem (has_eq_false_iff.mp h)

theorem entries_erase_at (h : t.entries = before ++ (key, value) :: after) :
    (t.erase key).entries = before ++ after := by
  change Entries.erase key t.entries = _
  rw [h, erase_at (notMem_of_at h).1 (notMem_of_at h).2]

theorem mem_keys_erase {other : String} :
    other ∈ (t.erase key).keys ↔ other ≠ key ∧ other ∈ t.keys := by
  constructor
  · intro hm
    obtain ⟨e, he, rfl⟩ := List.mem_map.mp hm
    obtain ⟨hmem, hne⟩ := List.mem_filter.mp he
    exact ⟨by simpa using hne, List.mem_map_of_mem hmem⟩
  · rintro ⟨hne, hm⟩
    obtain ⟨e, he, rfl⟩ := List.mem_map.mp hm
    exact List.mem_map_of_mem (List.mem_filter.mpr ⟨he, by simpa using hne⟩)

theorem mem_values {value : α} : value ∈ t.values ↔ ∃ key, (key, value) ∈ t.entries := by
  simp [values]

/-- A table whose values know their keys is told by its values. -/
theorem entries_eq_map {name : α → String} (h : ∀ e ∈ t.entries, name e.2 = e.1) :
    t.entries = t.values.map fun a => (name a, a) := by
  rw [values, List.map_map]
  refine (List.map_id t.entries).symm.trans (List.map_congr_left ?_)
  intro e he
  exact Prod.ext (h e he).symm rfl

theorem mem_values_of_get? (h : t.get? key = some value) : value ∈ t.values :=
  List.mem_map_of_mem (Entries.mem_of_get? h)

theorem exists_get?_of_mem_values (h : value ∈ t.values) : ∃ key, t.get? key = some value := by
  obtain ⟨key, hentry⟩ := mem_values.mp h
  exact ⟨key, get?_of_mem hentry⟩

/-- What holds of the values under any two keys holds along the order of the table. -/
theorem pairwise_values {R : α → α → Prop}
    (h : ∀ k l a b, k ≠ l → t.get? k = some a → t.get? l = some b → R a b) :
    t.values.Pairwise R := by
  have hkeys : t.entries.Pairwise fun a b => a.1 ≠ b.1 := List.pairwise_map.mp t.nodup
  refine List.pairwise_map.mpr (hkeys.imp_of_mem ?_)
  intro a b ha hb hne
  exact h a.1 b.1 a.2 b.2 hne (get?_of_mem ha) (get?_of_mem hb)

theorem mem_values_put {v : α} (h : v ∈ (t.put key value).values) : v = value ∨ v ∈ t.values := by
  obtain ⟨e, he, rfl⟩ := List.mem_map.mp h
  rcases Entries.mem_put he with rfl | hmem
  · exact .inl rfl
  · exact .inr (List.mem_map_of_mem hmem)

theorem get?_erase_of_ne {other : String} (h : other ≠ key) :
    (t.erase key).get? other = t.get? other :=
  Entries.get?_erase_of_ne h

theorem get?_merge {under upper : Table α} :
    (under.merge upper).get? key = (upper.get? key).or (under.get? key) :=
  Entries.get?_merge upper.nodup

theorem values_put_new (h : t.has key = false) :
    (t.put key value).values = t.values ++ [value] := by
  rw [values, entries_put_new h, List.map_append]
  rfl

theorem size_put_new (h : t.has key = false) : (t.put key value).size = t.size + 1 := by
  rw [size, entries_put_new h, List.length_append]
  rfl

section Prefix

variable {s : Table α} {added : List (String × α)}

/-! What a table has, it has with more entries behind. -/

theorem has_of_append (h : s.entries = t.entries ++ added) (there : t.has key = true) :
    s.has key = true := by
  rw [has_iff_mem_keys] at there ⊢
  rw [keys, h, Entries.keys_append]
  exact List.mem_append_left _ there

theorem mem_values_of_append (h : s.entries = t.entries ++ added) (there : value ∈ t.values) :
    value ∈ s.values := by
  rw [values, h, List.map_append]
  exact List.mem_append_left _ there

theorem size_le_of_append (h : s.entries = t.entries ++ added) : t.size ≤ s.size := by
  rw [size, size, h, List.length_append]
  exact Nat.le_add_right _ _

end Prefix

/-- A table is made up by the order of its keys and by the values under them. -/
theorem ext_get? {s : Table α} (same : s.keys = t.keys) (values : ∀ key, s.get? key = t.get? key) :
    s = t := by
  have hlength : s.entries.length = t.entries.length := by
    simpa [keys, Entries.keys] using congrArg List.length same
  apply ext
  apply List.ext_getElem hlength
  intro i hs ht
  have hkey : s.entries[i].1 = t.entries[i].1 := by
    have hget : s.keys[i]? = t.keys[i]? := by rw [same]
    simpa [keys, Entries.keys, hs, ht] using hget
  have hvalue : some s.entries[i].2 = some t.entries[i].2 :=
    calc some s.entries[i].2
        = s.get? s.entries[i].1 := (get?_of_mem (List.getElem_mem hs)).symm
      _ = t.get? t.entries[i].1 := by rw [values, hkey]
      _ = some t.entries[i].2 := get?_of_mem (List.getElem_mem ht)
  exact Prod.ext hkey (Option.some.inj hvalue)

/-- A table that goes on from another one: its next entry is new to the other one. -/
theorem fresh_of_split {s : Table α} (split : t.entries = s.entries ++ (key, value) :: after) :
    s.has key = false ∧ s.size < t.size ∧ t.entries = (s.put key value).entries ++ after := by
  have hfresh : s.has key = false := has_eq_false_iff.mpr (notMem_of_at split).1
  refine ⟨hfresh, ?_, ?_⟩
  · rw [size, size, split, List.length_append, List.length_cons]
    omega
  · rw [entries_put_new hfresh, List.append_assoc]
    exact split

theorem size_put_of_has (h : t.has key = true) : (t.put key value).size = t.size := by
  obtain ⟨old, hold⟩ := has_iff_exists.mp h
  obtain ⟨before, after, he⟩ := exists_at hold
  rw [size, size, entries_put_at he, he, List.length_append, List.length_append]
  rfl

theorem entries_erase_sublist (t : Table α) (key : String) :
    (t.erase key).entries.Sublist t.entries :=
  List.filter_sublist

theorem has_erase_self : (t.erase key).has key = false := by
  rw [has_eq_false_iff, mem_keys_erase]
  exact fun h => h.1 rfl

/-- The entries of a table make a table in any order. -/
theorem entries_ofEntries_of_perm {t : Table α} (same : entries.Perm t.entries) :
    (ofEntries entries).entries = entries := by
  have hdistinct : (Entries.keys ([] ++ entries)).Nodup :=
    (same.map Prod.fst).nodup_iff.mpr t.nodup
  exact merge_of_nodup hdistinct

theorem ofEntries_entries (t : Table α) : ofEntries t.entries = t :=
  ext (entries_ofEntries_of_perm (.refl t.entries))

theorem ofEntries_eq_empty_iff : ofEntries entries = empty ↔ entries = [] := by
  constructor
  · intro h
    cases entries with
    | nil => rfl
    | cons e rest =>
      have hentries : Entries.merge [e] rest = [] := congrArg Table.entries h
      exact absurd hentries (Entries.merge_ne_nil (List.cons_ne_nil e []))
  · intro h
    rw [h]
    rfl

/-- A new entry goes between the entries that its index parts. -/
theorem entries_insertAt (h : t.entries = before ++ after) (hk : t.has key = false) :
    (t.insertAt before.length key value).entries = before ++ (key, value) :: after := by
  have hs : t.size = before.length + after.length := by rw [size, h, List.length_append]
  have hplace : place t.size (before.length : Int) = before.length := by
    have hnonneg : ¬ (before.length : Int) < 0 := by omega
    rw [place, if_neg hnonneg, Int.toNat_natCast]
  unfold insertAt
  split
  next hle =>
    have ha : after = [] := List.eq_nil_of_length_eq_zero (by omega)
    rw [entries_put_new hk, h, ha, List.append_nil]
  next hlt =>
    have hkeys : (Entries.keys ([] ++ (before ++ (key, value) :: after))).Nodup := by
      have hkn := has_eq_false_iff.mp hk
      have hn := t.nodup
      rw [keys, h, keys_append, List.mem_append, not_or] at hkn
      rw [h, keys_append] at hn
      rw [List.nil_append, keys_append]
      apply List.perm_middle.nodup_iff.mpr
      exact List.nodup_cons.mpr ⟨fun hm => (List.mem_append.mp hm).elim hkn.1 hkn.2, hn⟩
    simp only [hplace, h, List.take_left, List.drop_left]
    exact merge_of_nodup hkeys

/-- The entries whose values fail a test. -/
def without (t : Table α) (test : α → Bool) : Table α :=
  ⟨t.entries.filter fun e => !test e.2, t.nodup.sublist (List.filter_sublist.map Prod.fst)⟩

theorem entries_without_sublist (t : Table α) (test : α → Bool) :
    (t.without test).entries.Sublist t.entries :=
  List.filter_sublist

theorem mem_values_without {test : α → Bool} {v : α} :
    v ∈ (t.without test).values ↔ v ∈ t.values ∧ test v = false := by
  simp [values, without]

/-- Erasing some keys one by one leaves the entries under the other keys. -/
theorem entries_foldl_erase (ks : List String) (t : Table α) :
    (ks.foldl erase t).entries = t.entries.filter fun e => !ks.contains e.1 := by
  induction ks generalizing t with
  | nil => exact (List.filter_eq_self.mpr fun _ _ => rfl).symm
  | cons k rest ih =>
    rw [List.foldl_cons, ih]
    change List.filter _ (List.filter _ t.entries) = _
    rw [List.filter_filter]
    apply List.filter_congr
    intro e _
    by_cases hk : e.1 = k <;> simp [hk]

theorem keys_foldl_erase (ks : List String) (t : Table α) :
    (ks.foldl erase t).keys = t.keys.filter (· ∉ ks) := by
  rw [keys, entries_foldl_erase, keys, Entries.keys, Entries.keys, List.filter_map]
  congr 1
  apply List.filter_congr
  intro e _
  simp

theorem get?_foldl_erase (ks : List String) (t : Table α) :
    (ks.foldl erase t).get? key = if key ∈ ks then none else t.get? key := by
  induction ks generalizing t with
  | nil => simp
  | cons k rest ih =>
    rw [List.foldl_cons, ih]
    by_cases hk : key = k
    · have hgone : (t.erase k).get? k = none :=
        Option.isNone_iff_eq_none.mp (Option.isSome_eq_false_iff.mp has_erase_self)
      simp [hk, hgone]
    · simp [hk, get?_erase_of_ne hk]

theorem get?_of_get?_foldl_erase {ks : List String} (h : (ks.foldl erase t).get? key = some value) :
    t.get? key = some value := by
  have hmem := Entries.mem_of_get? h
  rw [entries_foldl_erase] at hmem
  exact get?_of_mem (List.mem_filter.mp hmem).1

section Values

variable {β : Type u} {f : α → β}

theorem get?_mapValues : (t.mapValues f).get? key = (t.get? key).map f := by
  change Entries.get? key (t.entries.map fun e => (e.1, f e.2)) =
    (Entries.get? key t.entries).map f
  induction t.entries with
  | nil => rfl
  | cons e rest ih =>
    rw [List.map_cons, Entries.get?, Entries.get?]
    split
    · rfl
    · exact ih

theorem has_mapValues : (t.mapValues f).has key = t.has key := by
  change ((t.mapValues f).get? key).isSome = (t.get? key).isSome
  rw [get?_mapValues, Option.isSome_map]

theorem entries_foldl_put {name : α → String} (values : List α) (s : Table β) :
    (values.foldl (fun s a => s.put (name a) (f a)) s).entries =
      Entries.merge s.entries (values.map fun a => (name a, f a)) := by
  induction values generalizing s with
  | nil => rfl
  | cons a rest ih => exact ih (s.put (name a) (f a))

/-- What is written value by value, each under its own name, is the table with its values changed,
when these are the names under which it keeps them. -/
theorem foldl_put_values {name : α → String} (h : ∀ e ∈ t.entries, name e.2 = e.1) :
    t.values.foldl (fun s a => s.put (name a) (f a)) empty = t.mapValues f := by
  have hentries : t.values.map (fun a => (name a, f a)) = (t.mapValues f).entries := by
    rw [values, List.map_map]
    refine List.map_congr_left fun e he => ?_
    rw [Function.comp_apply, h e he]
  have hnodup : (Entries.keys ([] ++ (t.mapValues f).entries)).Nodup := (t.mapValues f).nodup
  apply ext
  rw [entries_foldl_put, hentries]
  exact merge_of_nodup hnodup

end Values

end Table

end GraphWorkbench

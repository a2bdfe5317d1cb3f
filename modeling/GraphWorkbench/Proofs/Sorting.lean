import Mathlib.Data.List.Basic
import Mathlib.Data.List.Nodup
/-!
Lists in the order of a sort. A list is known by its order and its items when the order tells them
apart, and in any case by what it has under each key.
-/
namespace GraphWorkbench

universe u
variable {α : Type u} {l l' : List α}

/-- Two lists of the same items come to one order when the order tells the items apart. -/
theorem mergeSort_eq_of_perm {r : α → α → Bool}
    (trans : ∀ a b c, r a b = true → r b c = true → r a c = true)
    (total : ∀ a b, (r a b || r b a) = true)
    (apart : ∀ a b, a ∈ l → b ∈ l' → r a b = true → r b a = true → a = b) (same : l.Perm l') :
    l.mergeSort r = l'.mergeSort r := by
  have hsorted := List.pairwise_mergeSort trans total l
  have hsorted' := List.pairwise_mergeSort trans total l'
  have hperm : (l.mergeSort r).Perm (l'.mergeSort r) :=
    (List.mergeSort_perm l r).trans (same.trans (List.mergeSort_perm l' r).symm)
  refine List.Perm.eq_of_pairwise ?_ hsorted hsorted' hperm
  intro a b ha hb
  exact apart a b (List.mem_mergeSort.mp ha) (List.mem_mergeSort.mp hb)

/-- Sorted by their places in a list, distinct items of it stand as they do there. -/
theorem mergeSort_idxOf [BEq α] [LawfulBEq α] {order : List α} (unique : order.Nodup)
    (nodup : l.Nodup) (within : ∀ a ∈ l, a ∈ order) :
    (l.mergeSort fun a b => order.idxOf a ≤ order.idxOf b) = order.filter l.contains := by
  have hsorted : (l.mergeSort fun a b => order.idxOf a ≤ order.idxOf b).Pairwise
      fun a b => decide (order.idxOf a ≤ order.idxOf b) = true :=
    List.pairwise_mergeSort (by simp; omega) (by simp; omega) l
  have horder : order.Pairwise fun a b => decide (order.idxOf a ≤ order.idxOf b) = true := by
    refine List.pairwise_iff_getElem.mpr fun i j hi hj hij => ?_
    rw [unique.idxOf_getElem i hi, unique.idxOf_getElem j hj]
    exact decide_eq_true (Nat.le_of_lt hij)
  have hperm : (l.mergeSort fun a b => order.idxOf a ≤ order.idxOf b).Perm
      (order.filter l.contains) := by
    refine (List.mergeSort_perm _ _).trans ?_
    refine (List.perm_ext_iff_of_nodup nodup (unique.filter _)).mpr fun a => ?_
    rw [List.mem_filter, List.contains_iff_mem]
    exact ⟨fun ha => ⟨within a ha, ha⟩, And.right⟩
  -- items at one place are the same
  refine List.Perm.eq_of_pairwise ?_ hsorted (horder.filter _) hperm
  intro a b _ hb hab hba
  have hplace := Nat.le_antisymm (of_decide_eq_true hba) (of_decide_eq_true hab)
  exact ((List.idxOf_inj (List.mem_filter.mp hb).1).mp hplace).symm

section Keyed

variable {key : α → Nat}

/-- Sorting by a key leaves the items under one key in order. -/
theorem filter_mergeSort_key (key : α → Nat) (l : List α) (i : Nat) :
    (l.mergeSort fun a b => key a ≤ key b).filter (key · = i) = l.filter (key · = i) := by
  let sorted := l.mergeSort fun a b => key a ≤ key b
  let here := l.filter (key · = i)
  -- items under one key are in order as they stand, so a stable sort keeps them so
  have hpairwise : here.Pairwise fun a b => decide (key a ≤ key b) = true := by
    refine List.pairwise_of_forall_mem_list fun a ha b hb => ?_
    have ha : key a = i := by simpa using (List.mem_filter.mp ha).2
    have hb : key b = i := by simpa using (List.mem_filter.mp hb).2
    exact decide_eq_true (by omega)
  have hsub : here.Sublist sorted :=
    List.sublist_mergeSort (by simp; omega) (by simp; omega) hpairwise List.filter_sublist
  have hsubHere : here.Sublist (sorted.filter (key · = i)) := by
    have hfilter := hsub.filter (key · = i)
    simpa only [List.filter_filter, Bool.and_self, here] using hfilter
  have hperm : sorted.Perm l := List.mergeSort_perm _ _
  -- the sorted list has no more of them
  have hlength := (hperm.filter (key · = i)).length_eq
  exact (hsubHere.eq_of_length hlength.symm).symm

theorem exists_mem_of_filter_eq (same : ∀ i, l.filter (key · = i) = l'.filter (key · = i)) {a : α}
    (h : a ∈ l) : ∃ b ∈ l', key b = key a := by
  have ha : a ∈ l.filter (key · = key a) := List.mem_filter.mpr ⟨h, by simp⟩
  rw [same] at ha
  exact ⟨a, List.mem_of_mem_filter ha, rfl⟩

/-- Lists in the order of a key that have the same items under each key are the same. -/
theorem eq_of_filter_eq (sorted : l.Pairwise fun a b => key a ≤ key b)
    (sorted' : l'.Pairwise fun a b => key a ≤ key b)
    (same : ∀ i, l.filter (key · = i) = l'.filter (key · = i)) : l = l' := by
  induction l generalizing l' with
  | nil =>
    cases l' with
    | nil => rfl
    | cons b _ =>
      obtain ⟨_, hmem, _⟩ := exists_mem_of_filter_eq (fun i => (same i).symm) List.mem_cons_self
      exact nomatch hmem
  | cons a rest ih =>
    cases l' with
    | nil =>
      obtain ⟨_, hmem, _⟩ := exists_mem_of_filter_eq same List.mem_cons_self
      exact nomatch hmem
    | cons b rest' =>
      obtain ⟨hle, hrest⟩ := List.pairwise_cons.mp sorted
      obtain ⟨hle', hrest'⟩ := List.pairwise_cons.mp sorted'
      -- both first items have the least key, so they come first under it
      have hkey : key a = key b := by
        obtain ⟨c, hc, hca⟩ := exists_mem_of_filter_eq same (a := a) List.mem_cons_self
        obtain ⟨c', hc', hcb⟩ :=
          exists_mem_of_filter_eq (fun i => (same i).symm) (a := b) List.mem_cons_self
        have hba : key b ≤ key c := (List.mem_cons.mp hc).elim (· ▸ Nat.le_refl _) (hle' c)
        have hab : key a ≤ key c' := (List.mem_cons.mp hc').elim (· ▸ Nat.le_refl _) (hle c')
        omega
      have hfirst := same (key a)
      rw [List.filter_cons_of_pos (by simp), List.filter_cons_of_pos (by simp [hkey])] at hfirst
      obtain ⟨rfl, _⟩ := List.cons.inj hfirst
      refine congrArg _ (ih hrest hrest' fun i => ?_)
      have hi := same i
      rw [List.filter_cons, List.filter_cons] at hi
      split at hi
      · exact (List.cons.inj hi).2
      · exact hi

/-- Sorted by a key, a list is known by what it has under each key. -/
theorem mergeSort_eq_of_filter_eq (same : ∀ i, l.filter (key · = i) = l'.filter (key · = i)) :
    (l.mergeSort fun a b => key a ≤ key b) = l'.mergeSort fun a b => key a ≤ key b := by
  have hsorted : ∀ l : List α, (l.mergeSort fun a b => key a ≤ key b).Pairwise
      fun a b => key a ≤ key b := by
    intro l
    have h : (l.mergeSort fun a b => key a ≤ key b).Pairwise
        fun a b => decide (key a ≤ key b) = true :=
      List.pairwise_mergeSort (by simp; omega) (by simp; omega) l
    simpa using h
  refine eq_of_filter_eq (hsorted l) (hsorted l') fun i => ?_
  rw [filter_mergeSort_key, filter_mergeSort_key, same]

/-- Items of distinct keys have the same under each key in any order. -/
theorem filter_eq_of_perm (same : l.Perm l') (distinct : (l.map key).Nodup) (i : Nat) :
    l.filter (key · = i) = l'.filter (key · = i) := by
  have hperm := same.filter (key · = i)
  have hone : (l.filter (key · = i)).length ≤ 1 := by
    rw [← List.countP_eq_length_filter]
    have hcount := List.nodup_iff_count_le_one.mp distinct i
    rwa [List.count, List.countP_map] at hcount
  cases hhere : l.filter (key · = i) with
  | nil =>
    rw [hhere] at hperm
    exact hperm.nil_eq
  | cons a rest =>
    rw [hhere] at hperm hone
    obtain rfl : rest = [] := by simpa using hone
    exact List.singleton_perm.mp hperm

end Keyed

end GraphWorkbench

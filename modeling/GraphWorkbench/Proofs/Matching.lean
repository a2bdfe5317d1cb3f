import GraphWorkbench.Proofs.Place
import Mathlib.Data.List.Perm.Subperm
/-!
Tables that hold related values under the same keys, in whatever order: what the comparison of tables
by a relation comes to.
-/
namespace GraphWorkbench

namespace Table

variable {α β : Type} {rel : α → β → Prop} {s : Table α} {t : Table β} {key : String} {a : α}

/-- Two tables have related values under the same keys, in whatever order. -/
structure Matches (rel : α → β → Prop) (s : Table α) (t : Table β) : Prop where
  keys : ∀ key, t.has key = s.has key
  values : ∀ key a b, s.get? key = some a → t.get? key = some b → rel a b

namespace Matches

theorem exists_of_get? (h : s.Matches rel t) (found : s.get? key = some a) :
    ∃ b, t.get? key = some b ∧ rel a b := by
  have hhas : t.has key = true := (h.keys key).trans (has_iff_exists.mpr ⟨a, found⟩)
  obtain ⟨b, hb⟩ := has_iff_exists.mp hhas
  exact ⟨b, hb, h.values key a b found hb⟩

theorem get?_eq_none (h : s.Matches rel t) (absent : s.get? key = none) : t.get? key = none := by
  have hhas : t.has key = false := (h.keys key).trans (congrArg Option.isSome absent)
  exact Option.isNone_iff_eq_none.mp (Option.isSome_eq_false_iff.mp hhas)

theorem exists_of_mem_values (h : s.Matches rel t) (ha : a ∈ s.values) :
    ∃ b ∈ t.values, rel a b := by
  obtain ⟨key, hkey⟩ := exists_get?_of_mem_values ha
  obtain ⟨b, hb, hrel⟩ := h.exists_of_get? hkey
  exact ⟨b, mem_values_of_get? hb, hrel⟩

theorem mem_keys (h : s.Matches rel t) : key ∈ t.keys ↔ key ∈ s.keys := by
  rw [← has_iff_mem_keys, ← has_iff_mem_keys, h.keys]

theorem flip (h : s.Matches rel t) {rev : β → α → Prop} (turn : ∀ a b, rel a b → rev b a) :
    t.Matches rev s :=
  ⟨fun key => (h.keys key).symm, fun key b a hb ha => turn a b (h.values key a b ha hb)⟩

theorem congr {s' : Table α} {t' : Table β} (h : s.Matches rel t)
    (hs : ∀ key, s'.get? key = s.get? key) (ht : ∀ key, t'.get? key = t.get? key) :
    s'.Matches rel t' := by
  constructor
  · intro key
    have hleft : s'.has key = s.has key := congrArg Option.isSome (hs key)
    have hright : t'.has key = t.has key := congrArg Option.isSome (ht key)
    rw [hleft, hright, h.keys]
  · intro key a b ha hb
    exact h.values key a b ((hs key).symm.trans ha) ((ht key).symm.trans hb)

/-- Of tables of one size, it is enough that every value of the first is related to the one under its
key in the second. -/
theorem of_entries (sizes : s.size = t.size)
    (related : ∀ e ∈ s.entries, ∃ b, t.get? e.1 = some b ∧ rel e.2 b) : s.Matches rel t := by
  have hsub : s.keys ⊆ t.keys := by
    intro key hkey
    obtain ⟨e, he, rfl⟩ := List.mem_map.mp hkey
    obtain ⟨b, hb, _⟩ := related e he
    exact (has_iff_mem_keys t e.1).mp (has_iff_exists.mpr ⟨b, hb⟩)
  have hlength : t.keys.length ≤ s.keys.length := by
    have hsizes : s.entries.length = t.entries.length := sizes
    simp [Table.keys, Entries.keys, hsizes]
  have hperm : s.keys.Perm t.keys :=
    (List.subperm_of_subset s.nodup hsub).perm_of_length_le hlength
  constructor
  · intro key
    rw [Bool.eq_iff_iff, has_iff_mem_keys, has_iff_mem_keys, hperm.mem_iff]
  · intro key a b ha hb
    obtain ⟨b', hb', hrel⟩ := related _ (Entries.mem_of_get? ha)
    obtain rfl := Option.some.inj (hb.symm.trans hb')
    exact hrel

theorem of_perm {rel : α → α → Prop} {s t : Table α} (refl : ∀ a, rel a a)
    (same : s.entries.Perm t.entries) : s.Matches rel t :=
  .of_entries same.length_eq fun e he =>
    ⟨e.2, get?_of_mem (same.mem_iff.mp he), refl e.2⟩

theorem size_eq (h : s.Matches rel t) : s.size = t.size := by
  have hperm : s.keys.Perm t.keys :=
    (List.perm_ext_iff_of_nodup s.nodup t.nodup).mpr fun _ => h.mem_keys.symm
  have hlength := hperm.length_eq
  simpa [Table.keys, Entries.keys, size] using hlength

end Matches

/-- Tables match when what they have under each key is related, or they have nothing there. -/
theorem matches_iff_rel :
    s.Matches rel t ↔ ∀ key, Option.Rel rel (s.get? key) (t.get? key) := by
  constructor
  · intro h key
    cases ha : s.get? key with
    | none =>
      rw [h.get?_eq_none ha]
      exact .none
    | some a =>
      obtain ⟨b, hb, hrel⟩ := h.exists_of_get? ha
      rw [hb]
      exact .some hrel
  · intro h
    constructor
    · intro key
      have hkey := h key
      change (t.get? key).isSome = (s.get? key).isSome
      generalize s.get? key = a, t.get? key = b at hkey
      cases hkey <;> rfl
    · intro key a b ha hb
      have hkey := h key
      rw [ha, hb] at hkey
      cases hkey with
      | some hrel => exact hrel

/-- The comparison of tables looks for keys only, whatever their order. -/
theorem sameBy_iff_matches {rel : α → β → Bool} :
    s.sameBy rel t = true ↔ s.Matches (fun a b => rel a b = true) t := by
  unfold sameBy
  rw [Bool.and_eq_true, beq_iff_eq, List.all_eq_true]
  constructor
  · rintro ⟨hsize, hall⟩
    refine .of_entries hsize fun e he => ?_
    have hrel := hall e he
    split at hrel
    next b hb => exact ⟨b, hb, hrel⟩
    next => exact nomatch hrel
  · intro h
    refine ⟨h.size_eq, fun e he => ?_⟩
    obtain ⟨b, hb, hrel⟩ := h.exists_of_get? (get?_of_mem he)
    rw [hb]
    exact hrel

theorem sameBy_self {α : Type} {rel : α → α → Bool} (refl : ∀ a, rel a a = true) (t : Table α) :
    t.sameBy rel t = true := by
  apply sameBy_iff_matches.mpr
  exact .of_perm refl (.refl t.entries)

end Table

end GraphWorkbench

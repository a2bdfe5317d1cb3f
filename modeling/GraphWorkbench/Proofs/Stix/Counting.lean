import GraphWorkbench.Proofs.Matching
import GraphWorkbench.Proofs.Sorting
import GraphWorkbench.Stix.Import
/-!
Counting keys into a table. What stands under a key is how often it was met, whatever the order in
which the keys came; put in order by its keys, the table is the same. An import counts the types of
objects in this way.
-/
namespace GraphWorkbench

/-- A number as it stands under a key that was met so many times. -/
def tally (n : Nat) : Option Nat := if n = 0 then none else some n

theorem tally_add (m n : Nat) : tally (m + n) = Option.merge (· + ·) (tally m) (tally n) := by
  cases m <;> cases n <;> simp [tally]

theorem merge_tally (g : Option Nat) (m n : Nat) :
    Option.merge (· + ·) (Option.merge (· + ·) g (tally m)) (tally n) =
      Option.merge (· + ·) g (tally (m + n)) := by
  cases g <;> cases m <;> cases n <;> simp [tally, Nat.add_assoc]

namespace Table

variable {s t : Table Nat}

/-- The table after some more keys were met. -/
def counting (t : Table Nat) (keys : List String) : Table Nat :=
  keys.foldl (fun t key => t.put key ((t.get? key).getD 0 + 1)) t

theorem get?_counting (t : Table Nat) (keys : List String) (key : String) :
    (t.counting keys).get? key = Option.merge (· + ·) (t.get? key) (tally (keys.count key)) := by
  induction keys generalizing t with
  | nil => simp [counting, tally]
  | cons met rest ih =>
    have hmet : (t.put met ((t.get? met).getD 0 + 1)).get? key =
        Option.merge (· + ·) (t.get? key) (tally (if met = key then 1 else 0)) := by
      rw [get?_put]
      by_cases hkey : key = met
      · subst hkey
        cases t.get? key <;> simp [tally]
      · rw [if_neg hkey, if_neg (Ne.symm hkey)]
        simp [tally]
    have hcount : (met :: rest).count key = (if met = key then 1 else 0) + rest.count key := by
      simp [List.count_cons, Nat.add_comm]
    change (counting (t.put met _) rest).get? key = _
    rw [ih, hmet, hcount, merge_tally]

/-- Tables of the same entries in whatever order have the same under every key. -/
theorem get?_ofEntries_of_perm {entries : List (String × Nat)} (h : entries.Perm t.entries)
    (key : String) : (Table.ofEntries entries).get? key = t.get? key := by
  have hmatch : (Table.ofEntries entries).Matches Eq t :=
    .of_perm (fun _ => rfl) (by rwa [entries_ofEntries_of_perm h])
  cases hget : (Table.ofEntries entries).get? key with
  | none => exact (hmatch.get?_eq_none hget).symm
  | some n =>
    obtain ⟨_, hother, rfl⟩ := hmatch.exists_of_get? hget
    exact hother.symm

/-- Tables that have the same under every key have the same entries. -/
theorem entries_perm_of_get? (same : ∀ key, s.get? key = t.get? key) : s.entries.Perm t.entries := by
  have hmem : ∀ t : Table Nat, ∀ e, e ∈ t.entries ↔ t.get? e.1 = some e.2 :=
    fun t e => ⟨fun he => get?_of_mem he, fun he => Entries.mem_of_get? he⟩
  refine (List.perm_ext_iff_of_nodup (.of_map _ s.nodup) (.of_map _ t.nodup)).mpr fun e => ?_
  rw [hmem, hmem, same]

/-- The entries of a table by their keys. -/
def inOrder (t : Table Nat) : List (String × Nat) := t.entries.mergeSort fun a b => a.1 ≤ b.1

theorem inOrder_eq (same : ∀ key, s.get? key = t.get? key) : s.inOrder = t.inOrder := by
  have hperm := entries_perm_of_get? same
  refine mergeSort_eq_of_perm ?_ ?_ ?_ hperm
  · intro a b c hab hbc
    exact decide_eq_true (String.le_trans (of_decide_eq_true hab) (of_decide_eq_true hbc))
  · intro a b
    simpa using String.le_total a.1 b.1
  · intro a b ha hb hab hba
    have hkey : a.1 = b.1 := String.le_antisymm (of_decide_eq_true hab) (of_decide_eq_true hba)
    exact List.inj_on_of_nodup_map t.nodup (hperm.mem_iff.mp ha) hb hkey

end Table

namespace Stix

/-- A summary has the types that were mapped and those that are unknown, in order. -/
theorem byType_summarize (b : Bundle) (report : ValidationReport) (c : Candidate)
    (items : List Item) : (summarize b report c items).byType =
      .ofEntries (c.byType.counting (report.unknown.map UnknownType.type)).inOrder := by
  simp only [summarize, Table.counting, List.foldl_map]
  rfl

end Stix

end GraphWorkbench

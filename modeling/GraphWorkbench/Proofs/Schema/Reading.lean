import Mathlib.Data.List.Forall2
import GraphWorkbench.Schema.Decode
import GraphWorkbench.Proofs.Place
/-!
What a reader says of the value that it was given, once it has answered: a text reads a text, a list
is read item by item, and a field is read from the one value that a look-up finds for it, or is
missing.
-/
namespace GraphWorkbench.Schema

variable {α : Type}

theorem under_eq_ok_iff {step : Step} {x : Decoded α} {a : α} :
    x.under step = .ok a ↔ x = .ok a := by
  cases x with
  | ok b => simp
  | error issues => simp [Decoded.under]

theorem fault_ne_ok (flaw : Flaw) (a : α) : fault flaw ≠ .ok a := by
  simp [fault]

section Scalars

variable {v : Json} {s : String} {o : Option String}

theorem string_eq_ok_iff : string v = .ok s ↔ v = .str s := by
  cases v with
  | str t => simp [string]
  | _ => simp [string, fault]

theorem eq_str_of_nonEmpty (h : nonEmpty v = .ok s) : v = .str s := by
  cases v with
  | str t =>
    by_cases ht : t.isEmpty = true
    · simp [nonEmpty, ht, fault] at h
    · simpa [nonEmpty, ht] using h
  | _ => exact absurd h (fault_ne_ok _ _)

theorem eq_str_of_formed {form : String} {fits : List Char → Bool}
    (h : formed form fits v = .ok s) : v = .str s ∧ fits s.toList = true := by
  cases v with
  | str t =>
    by_cases ht : fits t.toList = true
    · have hs : t = s := by simpa [formed, ht] using h
      exact ⟨congrArg Json.str hs, hs ▸ ht⟩
    · simp [formed, ht, fault] at h
  | _ => exact absurd h (fault_ne_ok _ _)

theorem eq_ofString?_of_nullable (h : nullable string v = .ok o) : v = .ofString? o := by
  cases v with
  | null =>
    obtain rfl : none = o := Except.ok.inj h
    rfl
  | str t =>
    obtain rfl : some t = o := Except.ok.inj h
    rfl
  | _ => simp [nullable, string, fault] at h

/-- When each choice stands under its own word, the word of what was read is the text it was read
from. -/
theorem eq_str_of_oneOf {choices : List (String × α)} {word : α → String} {a : α}
    (hwords : ∀ e ∈ choices, e.1 = word e.2) (h : oneOf choices v = .ok a) : v = .str (word a) := by
  cases v with
  | str t =>
    cases hget : Entries.get? t choices with
    | none => simp [oneOf, hget, fault] at h
    | some b =>
      have hb : b = a := by simpa [oneOf, hget] using h
      have ht : t = word b := hwords _ (Entries.mem_of_get? hget)
      rw [ht, hb]
  | _ => exact absurd h (fault_ne_ok _ _)

end Scalars

section Lists

variable {d : Json → Decoded α} {v : Json} {items : List Json} {as : List α}

/-- The items of a list; no items when the value is no list. -/
def itemsOf (v : Json) : List Json := v.arr?.getD []

theorem itemsFrom_eq_ok_iff {i : Nat} :
    itemsFrom d i items = .ok as ↔ List.Forall₂ (fun v a => d v = .ok a) items as := by
  induction items generalizing i as with
  | nil =>
    rw [itemsFrom, List.forall₂_nil_left_iff, Except.ok.injEq]
    exact eq_comm
  | cons v rest ih =>
    simp only [itemsFrom, Decoded.ap_eq_ok_iff, under_eq_ok_iff, ih]
    constructor
    · rintro ⟨g, others, ⟨make, a, hmake, hv, rfl⟩, hrest, rfl⟩
      obtain rfl : List.cons = make := Except.ok.inj hmake
      exact List.Forall₂.cons hv hrest
    · intro h
      cases h with
      | cons hv hrest => exact ⟨_, _, ⟨_, _, rfl, hv, rfl⟩, hrest, rfl⟩

theorem forall₂_of_listOf (h : listOf d v = .ok as) :
    List.Forall₂ (fun v a => d v = .ok a) (itemsOf v) as := by
  cases v with
  | arr items => exact itemsFrom_eq_ok_iff.mp h
  | _ => exact absurd h (fault_ne_ok _ _)

theorem eq_ok_of_checked {test : α → Option Flaw} {a : α} (h : checked test d v = .ok a) :
    d v = .ok a := by
  unfold checked at h
  split at h
  next b hb =>
    split at h
    · rwa [← Except.ok.inj h]
    · exact absurd h (fault_ne_ok _ _)
  next => exact absurd h (by simp)

theorem forall₂_of_someOf (h : someOf d v = .ok as) :
    List.Forall₂ (fun v a => d v = .ok a) (itemsOf v) as :=
  forall₂_of_listOf (eq_ok_of_checked h)

theorem eq_map_str_of_forall₂ {ss : List String}
    (h : List.Forall₂ (fun v s => string v = .ok s) items ss) : items = ss.map .str := by
  induction h with
  | nil => rfl
  | cons hv _ ih => rw [List.map_cons, string_eq_ok_iff.mp hv, ih]

end Lists

section Records

variable {fields : Fields} {name plain : String} {d : Json → Decoded α} {a fallback : α}

/-- The value of a field, null when there is none. -/
def valueOf (name plain : String) (fields : Fields) : Json := (lookup name plain fields).getD .null

theorem eq_ok_of_required (h : required fields name plain d = .ok a) :
    d (valueOf name plain fields) = .ok a := by
  unfold required at h
  unfold valueOf
  cases hlookup : lookup name plain fields with
  | none => exact absurd (under_eq_ok_iff.mp (by simpa [hlookup] using h)) (fault_ne_ok _ _)
  | some v => exact under_eq_ok_iff.mp (by simpa [hlookup] using h)

theorem cases_of_optional (h : optional fields name plain fallback d = .ok a) :
    d (valueOf name plain fields) = .ok a ∨ valueOf name plain fields = .null ∧ a = fallback := by
  unfold optional at h
  unfold valueOf
  cases hlookup : lookup name plain fields with
  | none =>
    right
    exact ⟨rfl, (by simpa [hlookup] using h.symm)⟩
  | some v =>
    left
    exact under_eq_ok_iff.mp (by simpa [hlookup] using h)

/-- A field that may be null reads as null when it is not there. -/
theorem eq_ok_of_optional_nullable {o : Option α}
    (h : optional fields name plain none (nullable d) = .ok o) :
    nullable d (valueOf name plain fields) = .ok o := by
  rcases cases_of_optional h with hread | ⟨hnull, rfl⟩
  · exact hread
  · rw [hnull]
    rfl

/-- A list that is not there reads as a list of no items. -/
theorem forall₂_of_optional_listOf {as : List α}
    (h : optional fields name plain [] (listOf d) = .ok as) :
    List.Forall₂ (fun v a => d v = .ok a) (itemsOf (valueOf name plain fields)) as := by
  rcases cases_of_optional h with hread | ⟨hnull, rfl⟩
  · exact forall₂_of_listOf hread
  · rw [hnull]
    exact List.Forall₂.nil

/-- Only an object is read as a record. -/
theorem exists_obj_of_record {record : String} {r : Fields → Decoded α} {v : Json}
    (h : Schema.record record r v = .ok a) : ∃ fields, v = .obj fields := by
  cases v with
  | obj fields => exact ⟨fields, rfl⟩
  | _ => exact absurd h (fault_ne_ok _ _)

end Records

end GraphWorkbench.Schema

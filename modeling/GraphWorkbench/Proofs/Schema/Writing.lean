import GraphWorkbench.Proofs.Schema.Reading
/-!
Values that are read again. What a reader made of a value, be it lenient about the form of that
value, is written in one form, and from this form the reader makes the same once more.
-/
namespace GraphWorkbench.Schema

variable {α β : Type} {d : Json → Decoded α} {write : α → Json}

/-- Whatever a reader answers is read again from what is written of it. -/
def Rereads (d : Json → Decoded α) (write : α → Json) : Prop :=
  ∀ ⦃v a⦄, d v = .ok a → d (write a) = .ok a

theorem checked_eq_ok_iff {test : α → Option Flaw} {v : Json} {a : α} :
    checked test d v = .ok a ↔ d v = .ok a ∧ test a = none := by
  constructor
  · intro h
    have hv := eq_ok_of_checked h
    refine ⟨hv, ?_⟩
    simp only [checked, hv] at h
    split at h
    next htest => exact htest
    next => exact absurd h (fault_ne_ok _ _)
  · rintro ⟨hv, htest⟩
    simp only [checked, hv, htest]

theorem nonEmpty_str_eq_ok_iff {s : String} : nonEmpty (.str s) = .ok s ↔ s ≠ "" := by
  by_cases hs : s = ""
  · simp [nonEmpty, hs, fault]
  · simp [nonEmpty, hs]

/-- A list is read back when each of its items is. -/
theorem listOf_map_eq_ok {as : List α} (h : ∀ a ∈ as, d (write a) = .ok a) :
    listOf d (.arr (as.map write)) = .ok as := by
  refine itemsFrom_eq_ok_iff.mpr ?_
  induction as with
  | nil => exact List.Forall₂.nil
  | cons a rest ih =>
    obtain ⟨ha, hrest⟩ := List.forall_mem_cons.mp h
    exact List.Forall₂.cons ha (ih hrest)

namespace Rereads

theorem string : Rereads string .str := fun _ _ _ => rfl

theorem nonEmpty : Rereads nonEmpty .str := fun _ _ h => eq_str_of_nonEmpty h ▸ h

theorem formed {form : String} {fits : List Char → Bool} : Rereads (formed form fits) .str :=
  fun _ _ h => (eq_str_of_formed h).1 ▸ h

theorem integer : Rereads integer .int := fun _ _ _ => rfl

theorem number : Rereads number .float := fun _ _ _ => rfl

theorem anyTable : Rereads anyTable .ofTable :=
  fun _ t _ => congrArg Except.ok t.ofEntries_entries

/-- A choice is read again when each choice stands under its word. -/
theorem oneOf {choices : List (String × α)} {word : α → String}
    (found : ∀ a, Entries.get? (word a) choices = some a) :
    Rereads (oneOf choices) fun a => .str (word a) := by
  intro v a _
  simp only [Schema.oneOf, found]

theorem checked {test : α → Option Flaw} (h : Rereads d write) :
    Rereads (checked test d) write := by
  intro v a hread
  obtain ⟨hv, htest⟩ := checked_eq_ok_iff.mp hread
  exact checked_eq_ok_iff.mpr ⟨h hv, htest⟩

/-- A count is read as an integer, which a test keeps from being negative. -/
theorem count {test : Int → Option Flaw} (nonneg : ∀ n, test n = none → 0 ≤ n) :
    Rereads (fun v => (Decoded.build Int.toNat).ap (Schema.checked test Schema.integer v))
      fun n : Nat => .int n := by
  intro v n hread
  obtain ⟨g, m, hg, hm, hn⟩ := (Decoded.ap_eq_ok_iff _ _ _).mp hread
  obtain rfl : Int.toNat = g := Except.ok.inj hg
  have htest := (checked_eq_ok_iff.mp hm).2
  have hcast : (n : Int) = m := by
    rw [← hn]
    exact Int.toNat_of_nonneg (nonneg m htest)
  have hwritten : Schema.checked test Schema.integer (.int n) = .ok m := by
    rw [hcast]
    exact integer.checked hm
  exact (Decoded.ap_eq_ok_iff _ _ _).mpr ⟨_, m, rfl, hwritten, hn⟩

/-- A value or null, when no value is written as null. -/
theorem nullable (h : Rereads d write) (notNull : ∀ a, write a ≠ .null) :
    Rereads (nullable d) fun o => (o.map write).getD .null := by
  intro v o hread
  cases o with
  | none => rfl
  | some a =>
    have hv : d v = .ok a := by
      unfold Schema.nullable at hread
      split at hread
      · exact nomatch hread
      · split at hread
        next b hb =>
          obtain rfl : b = a := by simpa using hread
          exact hb
        next => exact nomatch hread
    have hwritten := h hv
    simp only [Option.map_some, Option.getD_some]
    unfold Schema.nullable
    split
    next hnull => exact absurd hnull (notNull a)
    next => rw [hwritten]

theorem listOf (h : Rereads d write) : Rereads (listOf d) fun as => .arr (as.map write) := by
  intro v as hread
  have hitems := forall₂_of_listOf hread
  have hall : ∀ a ∈ as, d (write a) = .ok a := by
    clear hread
    generalize itemsOf v = items at hitems
    induction hitems with
    | nil => simp
    | cons hv _ ih => exact List.forall_mem_cons.mpr ⟨h hv, ih⟩
  exact listOf_map_eq_ok hall

/-- A required field is read again from its value. -/
theorem required (h : Rereads d write) {fields : Fields} {name plain : String} {a : α}
    (hread : required fields name plain d = .ok a) : d (write a) = .ok a :=
  h (eq_ok_of_required hread)

/-- An optional field is read again from its value when its fallback is. -/
theorem optional (h : Rereads d write) {fields : Fields} {name plain : String} {a fallback : α}
    (hfallback : d (write fallback) = .ok fallback)
    (hread : optional fields name plain fallback d = .ok a) : d (write a) = .ok a := by
  rcases cases_of_optional hread with hv | ⟨_, rfl⟩
  · exact h hv
  · exact hfallback

end Rereads

end GraphWorkbench.Schema

import GraphWorkbench.Proofs.Document.Kinds
/-!
Sameness of values. It is reflexive and symmetric on proper values, those in which no object names a
member twice: the comparison of objects goes through the members of the one and looks each of them up
in the other, so it is only the number of members that keeps the other from having more.
-/
namespace GraphWorkbench

namespace Extended

theorem alike_self (x : Extended) : x.alike x = true := by
  cases x <;> simp [alike, eq]

theorem alike_comm (x y : Extended) : x.alike y = y.alike x := by
  cases x <;> cases y <;> simp only [alike, eq_comm]

end Extended

namespace Json

mutual
/-- No object in a value names a member twice. -/
def Proper : Json → Prop
  | .arr items => ProperItems items
  | .obj fields => (Entries.keys fields).Nodup ∧ ProperFields fields
  | _ => True
def ProperItems : List Json → Prop
  | [] => True
  | v :: rest => v.Proper ∧ ProperItems rest
def ProperFields : List (String × Json) → Prop
  | [] => True
  | (_, v) :: rest => v.Proper ∧ ProperFields rest
end

mutual
instance decidableProper : DecidablePred Proper
  | .null | .bool _ | .int _ | .float _ | .str _ => inferInstanceAs (Decidable True)
  | .arr items => decidableProperItems items
  | .obj fields => @instDecidableAnd _ _ inferInstance (decidableProperFields fields)
instance decidableProperItems : DecidablePred ProperItems
  | [] => inferInstanceAs (Decidable True)
  | v :: rest => @instDecidableAnd _ _ (decidableProper v) (decidableProperItems rest)
instance decidableProperFields : DecidablePred ProperFields
  | [] => inferInstanceAs (Decidable True)
  | (_, v) :: rest => @instDecidableAnd _ _ (decidableProper v) (decidableProperFields rest)
end

variable {v w : Json} {fields others : List (String × Json)} {key : String}

theorem proper_of_mem_fields (h : ProperFields fields) {e : String × Json} (he : e ∈ fields) :
    e.2.Proper := by
  induction fields with
  | nil => exact nomatch he
  | cons first rest ih =>
    rcases List.mem_cons.mp he with rfl | he
    · exact h.1
    · exact ih h.2 he

/-- Objects with distinct members are compared as tables are. -/
theorem same_obj_iff (h : (Entries.keys fields).Nodup) (h' : (Entries.keys others).Nodup) :
    same (.obj fields) (.obj others) = true ↔
      (⟨fields, h⟩ : Table Json).Matches (fun v w => v.same w = true) ⟨others, h'⟩ := by
  have hall : Table.sameBy same ⟨fields, h⟩ ⟨others, h'⟩ =
      (fields.length == others.length && fields.all (heldIn others)) := by
    refine congrArg (_ && ·) (congrArg fields.all (funext fun e => ?_))
    unfold heldIn Table.get?
    cases Entries.get? e.1 others <;> rfl
  rw [← Table.sameBy_iff_matches, hall, same, sameFields_eq_all]

/-- A number is compared by its magnitude. -/
theorem same_of_number {x : Extended} (h : v.number? = some x) (w : Json) :
    v.same w = true ↔ ∃ y, w.number? = some y ∧ x.alike y = true := by
  have hsame : v.same w = w.number?.elim false x.alike := by
    cases v with
    | bool _ | int _ | float _ =>
      obtain rfl := Option.some.inj h
      cases hw : w.number? <;> simp [same, hw]
    | _ => cases h
  rw [hsame]
  cases w.number? with
  | none => simp
  | some y => simp

theorem same_symm_of_number {x : Extended} (hv : v.number? = some x) (h : v.same w = true) :
    w.same v = true := by
  obtain ⟨y, hw, halike⟩ := (same_of_number hv w).mp h
  apply (same_of_number hw v).mpr
  exact ⟨x, hv, (Extended.alike_comm y x).trans halike⟩

mutual
theorem same_self : ∀ {v : Json}, v.Proper → v.same v = true
  | .null, _ => rfl
  | .bool _, _ | .int _, _ | .float _, _ =>
    (same_of_number rfl _).mpr ⟨_, rfl, Extended.alike_self _⟩
  | .str _, _ => beq_self_eq_true _
  | .arr items, h => sameItems_self (show ProperItems items from h)
  | .obj fields, h => by
    apply (same_obj_iff h.1 h.1).mpr
    refine .of_entries rfl fun e he => ⟨e.2, Table.get?_of_mem he, ?_⟩
    exact sameFields_self h.2 e he
theorem sameItems_self : ∀ {items : List Json}, ProperItems items → sameItems items items = true
  | [], _ => rfl
  | v :: rest, h => by rw [sameItems, same_self h.1, sameItems_self h.2]; rfl
theorem sameFields_self : ∀ {fields : List (String × Json)}, ProperFields fields →
    ∀ e ∈ fields, e.2.same e.2 = true
  | [], _, _, he => nomatch he
  | (_, v) :: rest, h, e, he => by
    rcases List.mem_cons.mp he with rfl | he
    · exact same_self h.1
    · exact sameFields_self h.2 e he
end

mutual
theorem same_symm : ∀ {v w : Json}, v.Proper → w.Proper → v.same w = true → w.same v = true
  | .null, w, _, _, h => by cases w <;> simp_all [same]
  | .bool b, w, _, _, h => same_symm_of_number (x := .ofInt (if b then 1 else 0)) rfl h
  | .int n, w, _, _, h => same_symm_of_number (x := .ofInt n) rfl h
  | .float x, w, _, _, h => same_symm_of_number (x := x.value) rfl h
  | .str s, w, _, _, h => by
    cases w with
    | str t => rw [same, beq_iff_eq] at h ⊢; exact h.symm
    | _ => exact nomatch h
  | .arr items, w, hv, hw, h => by
    cases w with
    | arr others => exact sameItems_symm (show ProperItems items from hv) hw h
    | _ => exact nomatch h
  | .obj fields, w, hv, hw, h => by
    cases w with
    | obj others =>
      have hmatch := (same_obj_iff hv.1 hw.1).mp h
      apply (same_obj_iff hw.1 hv.1).mpr
      -- the members of the smaller values are the ones that the comparison is symmetric on already
      refine ⟨fun key => (hmatch.keys key).symm, fun key b a hb ha => ?_⟩
      exact sameFields_symm hv.2 _ (Entries.mem_of_get? ha)
        (proper_of_mem_fields hw.2 (Entries.mem_of_get? hb)) (hmatch.values key a b ha hb)
    | _ => exact nomatch h
theorem sameItems_symm : ∀ {items others : List Json}, ProperItems items → ProperItems others →
    sameItems items others = true → sameItems others items = true
  | [], others, _, _, h => by
    obtain rfl : others = [] := List.isEmpty_iff.mp h
    rfl
  | v :: rest, others, hv, hw, h => by
    cases others with
    | nil => exact nomatch h
    | cons w rest' =>
      rw [sameItems, Bool.and_eq_true] at h ⊢
      exact ⟨same_symm hv.1 hw.1 h.1, sameItems_symm hv.2 hw.2 h.2⟩
theorem sameFields_symm : ∀ {fields : List (String × Json)}, ProperFields fields →
    ∀ e ∈ fields, ∀ {w : Json}, w.Proper → e.2.same w = true → w.same e.2 = true
  | [], _, _, he, _, _, _ => nomatch he
  | (_, v) :: rest, h, e, he, w, hw, hsame => by
    rcases List.mem_cons.mp he with rfl | he
    · exact same_symm h.1 hw hsame
    · exact sameFields_symm h.2 e he hw hsame
end

end Json

end GraphWorkbench

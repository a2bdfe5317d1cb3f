import GraphWorkbench.Json.Literal
/-!
Values that can be written out as they are, and the texts by which values go in sentences.
-/
namespace GraphWorkbench

namespace Json

mutual
/-- All numbers in a value are finite. -/
def Finite : Json → Prop
  | .float x => x.isFinite = true
  | .arr items => FiniteItems items
  | .obj fields => FiniteFields fields
  | _ => True
def FiniteItems : List Json → Prop
  | [] => True
  | v :: rest => v.Finite ∧ FiniteItems rest
def FiniteFields : List (String × Json) → Prop
  | [] => True
  | (_, v) :: rest => v.Finite ∧ FiniteFields rest
end

mutual
instance decidableFinite : DecidablePred Finite
  | .null | .bool _ | .int _ | .str _ => inferInstanceAs (Decidable True)
  | .float x => inferInstanceAs (Decidable (x.isFinite = true))
  | .arr items => decidableFiniteItems items
  | .obj fields => decidableFiniteFields fields
instance decidableFiniteItems : DecidablePred FiniteItems
  | [] => inferInstanceAs (Decidable True)
  | v :: rest => @instDecidableAnd _ _ (decidableFinite v) (decidableFiniteItems rest)
instance decidableFiniteFields : DecidablePred FiniteFields
  | [] => inferInstanceAs (Decidable True)
  | (_, v) :: rest => @instDecidableAnd _ _ (decidableFinite v) (decidableFiniteFields rest)
end

mutual
/-- A value whose numbers are finite is written as it is. -/
theorem portable_of_finite : ∀ {v : Json}, v.Finite → v.portable = v
  | .null, _ | .bool _, _ | .int _, _ | .str _, _ => rfl
  | .float _, h => if_pos h
  | .arr items, h => congrArg Json.arr (portableItems_of_finite (show FiniteItems items from h))
  | .obj fields, h => congrArg Json.obj (portableFields_of_finite (show FiniteFields fields from h))
theorem portableItems_of_finite : ∀ {items : List Json}, FiniteItems items →
    portableItems items = items
  | [], _ => rfl
  | v :: rest, h => by rw [portableItems, portable_of_finite h.1, portableItems_of_finite h.2]
theorem portableFields_of_finite : ∀ {fields : List (String × Json)}, FiniteFields fields →
    portableFields fields = fields
  | [], _ => rfl
  | (k, v) :: rest, h => by
    rw [portableFields, portable_of_finite h.1, portableFields_of_finite h.2]
end

mutual
/-- What is written has finite numbers only. -/
theorem finite_portable : ∀ v : Json, v.portable.Finite
  | .null | .bool _ | .int _ | .str _ => trivial
  | .float x => by
    rw [portable]
    by_cases hx : x.isFinite = true
    · rw [if_pos hx]
      exact hx
    · rw [if_neg hx]
      trivial
  | .arr items => finiteItems_portable items
  | .obj fields => finiteFields_portable fields
theorem finiteItems_portable : ∀ items : List Json, FiniteItems (portableItems items)
  | [] => trivial
  | v :: rest => ⟨finite_portable v, finiteItems_portable rest⟩
theorem finiteFields_portable :
    ∀ fields : List (String × Json), FiniteFields (portableFields fields)
  | [] => trivial
  | (_, v) :: rest => ⟨finite_portable v, finiteFields_portable rest⟩
end

theorem finiteItems_map {α : Type} {f : α → Json} {as : List α} (h : ∀ a ∈ as, (f a).Finite) :
    FiniteItems (as.map f) := by
  induction as with
  | nil => trivial
  | cons a rest ih =>
    obtain ⟨ha, hrest⟩ := List.forall_mem_cons.mp h
    exact ⟨ha, ih hrest⟩

theorem finiteFields_append {a b : List (String × Json)} (ha : FiniteFields a)
    (hb : FiniteFields b) : FiniteFields (a ++ b) := by
  induction a with
  | nil => exact hb
  | cons e rest ih => exact ⟨ha.1, ih ha.2⟩

end Json

theorem NumeralStyle.render_ne_nil (style : NumeralStyle) (d : Decimal) : style.render d ≠ [] := by
  unfold NumeralStyle.render
  split
  · split <;> simp
  · simp

theorem Binary64.toText_ne_empty (x : Binary64) : x.toText ≠ "" := by
  have hbody : (if x.isInfinite then ['i', 'n', 'f'] else if x.isZero then ['0', '.', '0']
      else plainNumerals.render x.shortest) ≠ [] := by
    have hrender := plainNumerals.render_ne_nil x.shortest
    split
    · simp
    · split <;> simp [hrender]
  unfold Binary64.toText
  split
  · decide
  · simp only
    generalize (if x.isInfinite then ['i', 'n', 'f'] else if x.isZero then ['0', '.', '0']
      else plainNumerals.render x.shortest) = body at hbody ⊢
    cases x.isNegative <;> simp [hbody]

namespace Json

theorem literalChars_ne_nil (v : Json) : v.literalChars ≠ [] := by
  cases v with
  | null => simp [literalChars]
  | bool b => cases b <;> simp [literalChars]
  | int n =>
    have htext : toString n ≠ "" := by
      cases n with
      | ofNat m => exact Nat.repr_ne_empty
      | negSucc m => simp [Int.toString_eq_repr, Int.repr]
    simpa [literalChars] using htext
  | float x => simpa [literalChars] using x.toText_ne_empty
  | str s => simp [literalChars, quoted]
  | arr items => simp [literalChars]
  | obj fields => simp [literalChars]

/-- What counts as true has a text that is not empty. -/
theorem text_ne_empty {v : Json} (h : v.isTruthy = true) : v.text ≠ "" := by
  have hliteral : v.literal ≠ "" := by
    intro he
    exact v.literalChars_ne_nil (by simpa [literal] using he)
  cases v with
  | str s => simpa [isTruthy, text] using h
  | _ => exact hliteral

end Json

end GraphWorkbench

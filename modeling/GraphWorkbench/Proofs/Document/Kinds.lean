import GraphWorkbench.Proofs.Document.Acceptance
import GraphWorkbench.Proofs.Matching
/-!
Values told apart by kind. Two values agree when they are the same in value and in kind: an integer
is then no binary number and a truth value no number, while the members of an object may still come
in any order. What is asked of properties cannot tell values apart that agree.
-/
namespace GraphWorkbench

namespace Json

mutual
/-- Sameness of value and kind. -/
def agrees : Json → Json → Bool
  | .null, w => match w with | .null => true | _ => false
  | .bool a, w => match w with | .bool b => a == b | _ => false
  | .int a, w => match w with | .int b => a == b | _ => false
  | .float a, w => match w with | .float b => a.value == b.value | _ => false
  | .str a, w => match w with | .str b => a == b | _ => false
  | .arr as, w => match w with | .arr bs => agreesItems as bs | _ => false
  | .obj as, w => match w with | .obj bs => agreesFields as bs | _ => false
def agreesItems : List Json → List Json → Bool
  | [], bs => bs.isEmpty
  | a :: as, bs => match bs with | b :: bs => agrees a b && agreesItems as bs | [] => false
/-- Each listed member takes one of its name and its value out of the other object, and then none is
left there. -/
def agreesFields : List (String × Json) → List (String × Json) → Bool
  | [], bs => bs.isEmpty
  | (k, a) :: as, bs => match Entries.get? k bs with
    | some b => agrees a b && agreesFields as (bs.eraseP (·.1 == k))
    | none => false
end

end Json

/-- The first entry under a key may be put in front. -/
theorem Entries.perm_front {α : Type} {key : String} {value : α} {entries : List (String × α)}
    (found : get? key entries = some value) :
    entries.Perm ((key, value) :: entries.eraseP (·.1 == key)) := by
  induction entries with
  | nil => exact nomatch found
  | cons e rest ih =>
    obtain ⟨k, v⟩ := e
    by_cases hk : k = key
    · subst hk
      have hvalue : v = value := by simpa [get?] using found
      simp [hvalue]
    · have hrest : get? key rest = some value := by simpa [get?, hk] using found
      have hkey : ((k, v).1 == key) = false := by simpa using hk
      rw [List.eraseP_cons_of_neg (by simp [hkey])]
      exact ((ih hrest).cons (k, v)).trans (.swap _ _ _)

namespace Json

variable {v w : Json} {as bs : List Json} {fields others : List (String × Json)}

/-- Only binary numbers, lists and objects can agree without being one and the same. -/
theorem cases_of_agrees (h : v.agrees w = true) :
    v = w ∨ (∃ x y, v = .float x ∧ w = .float y ∧ x.value = y.value) ∨
      (∃ as bs, v = .arr as ∧ w = .arr bs ∧ agreesItems as bs = true) ∨
      ∃ fields others, v = .obj fields ∧ w = .obj others ∧ agreesFields fields others = true := by
  cases v <;> cases w <;> simp_all [agrees]

mutual
theorem agrees_self : ∀ v : Json, v.agrees v = true
  | .null | .bool _ | .int _ | .float _ | .str _ => by simp [agrees]
  | .arr items => by rw [agrees, agreesItems_self items]
  | .obj fields => by rw [agrees, agreesFields_self fields]
theorem agreesItems_self : ∀ items : List Json, agreesItems items items = true
  | [] => rfl
  | v :: rest => by simp [agreesItems, agrees_self v, agreesItems_self rest]
theorem agreesFields_self : ∀ fields : List (String × Json), agreesFields fields fields = true
  | [] => rfl
  | (k, v) :: rest => by
    simp [agreesFields, Entries.get?, agrees_self v, agreesFields_self rest]
end

/-- A test that values agree in gives the same for lists that agree item by item. -/
theorem all_of_agreesItems {test : Json → Bool}
    (level : ∀ v w : Json, v.agrees w = true → test v = test w) (h : agreesItems as bs = true) :
    as.all test = bs.all test := by
  induction as generalizing bs with
  | nil =>
    obtain rfl : bs = [] := by simpa [agreesItems] using h
    rfl
  | cons a rest ih =>
    cases bs with
    | nil => simp [agreesItems] at h
    | cons b rest' =>
      simp only [agreesItems, Bool.and_eq_true] at h
      rw [List.all_cons, List.all_cons, level a b h.1, ih h.2]

theorem length_of_agreesItems (h : agreesItems as bs = true) : as.length = bs.length := by
  induction as generalizing bs with
  | nil =>
    obtain rfl : bs = [] := by simpa [agreesItems] using h
    rfl
  | cons a rest ih =>
    cases bs with
    | nil => simp [agreesItems] at h
    | cons b rest' =>
      simp only [agreesItems, Bool.and_eq_true] at h
      rw [List.length_cons, List.length_cons, ih h.2]

/-- What the first member takes out of the other object. -/
theorem exists_of_agreesFields {k : String} {a : Json}
    (h : agreesFields ((k, a) :: fields) others = true) :
    ∃ b rest, others.Perm ((k, b) :: rest) ∧ a.agrees b = true ∧ agreesFields fields rest = true := by
  rw [agreesFields] at h
  split at h
  next b found =>
    rw [Bool.and_eq_true] at h
    exact ⟨b, _, Entries.perm_front found, h.1, h.2⟩
  next => exact nomatch h

theorem length_of_agreesFields (h : agreesFields fields others = true) :
    fields.length = others.length := by
  induction fields generalizing others with
  | nil =>
    obtain rfl : others = [] := by simpa [agreesFields] using h
    rfl
  | cons e rest ih =>
    obtain ⟨b, left, hperm, _, hrest⟩ := exists_of_agreesFields h
    rw [hperm.length_eq, List.length_cons, List.length_cons, ih hrest]

/-- Whether a member has one of the same value among others. -/
def heldIn (others : List (String × Json)) (e : String × Json) : Bool :=
  match Entries.get? e.1 others with
  | some w => same e.2 w
  | none => false

theorem sameFields_eq_all : sameFields fields others = fields.all (heldIn others) := by
  induction fields with
  | nil => rfl
  | cons e rest ih =>
    rw [sameFields, ih, List.all_cons]
    rfl

mutual
/-- Values that agree are the same as the same values. -/
theorem same_congr : ∀ {v w : Json}, v.agrees w = true → ∀ x, v.same x = w.same x
  | .null, w, h, x | .bool _, w, h, x | .int _, w, h, x | .str _, w, h, x => by
    cases w <;> simp_all [agrees]
  | .float a, w, h, x => by
    cases w with
    | float b =>
      have hvalue : a.value = b.value := by simpa [agrees] using h
      rw [same, same, hvalue]
    | _ => simp [agrees] at h
  | .arr as, w, h, x => by
    cases w with
    | arr bs =>
      cases x with
      | arr cs => exact sameItems_congr h cs
      | _ => rfl
    | _ => simp [agrees] at h
  | .obj as, w, h, x => by
    cases w with
    | obj bs =>
      -- objects are the same when they have as many members and each of one is held in the other
      cases x with
      | obj cs =>
        have hfields : agreesFields as bs = true := h
        rw [same, same, length_of_agreesFields hfields, sameFields_congr hfields]
      | _ => rfl
    | _ => simp [agrees] at h
theorem sameItems_congr : ∀ {as bs : List Json}, agreesItems as bs = true →
    ∀ cs, sameItems as cs = sameItems bs cs
  | [], bs, h, cs => by
    obtain rfl : bs = [] := by simpa [agreesItems] using h
    rfl
  | a :: as, bs, h, cs => by
    cases bs with
    | nil => simp [agreesItems] at h
    | cons b bs =>
      simp only [agreesItems, Bool.and_eq_true] at h
      cases cs with
      | nil => rfl
      | cons c cs => rw [sameItems, sameItems, same_congr h.1, sameItems_congr h.2]
theorem sameFields_congr : ∀ {fields others : List (String × Json)},
    agreesFields fields others = true → ∀ cs, sameFields fields cs = sameFields others cs
  | [], others, h, cs => by
    obtain rfl : others = [] := by simpa [agreesFields] using h
    rfl
  | (k, a) :: fields, others, h, cs => by
    -- the test of the members does not mind their order, so the partner may be put in front
    obtain ⟨b, rest, hperm, hvalue, hrest⟩ := exists_of_agreesFields h
    have htail : fields.all (heldIn cs) = rest.all (heldIn cs) := by
      rw [← sameFields_eq_all, ← sameFields_eq_all]
      exact sameFields_congr hrest cs
    have hhead : heldIn cs (k, a) = heldIn cs (k, b) := by
      unfold heldIn
      cases Entries.get? k cs with
      | none => rfl
      | some c => exact same_congr hvalue c
    calc sameFields ((k, a) :: fields) cs
      _ = (heldIn cs (k, a) && fields.all (heldIn cs)) := sameFields_eq_all
      _ = (heldIn cs (k, b) && rest.all (heldIn cs)) := by rw [hhead, htail]
      _ = others.all (heldIn cs) := hperm.all_eq.symm
      _ = sameFields others cs := sameFields_eq_all.symm
end

/-! What the checks look at. -/

theorem isVacant_of_agrees (h : v.agrees w = true) : v.isVacant = w.isVacant := by
  rcases cases_of_agrees h with rfl | ⟨_, _, rfl, rfl, _⟩ | ⟨_, _, rfl, rfl, hitems⟩ |
    ⟨_, _, rfl, rfl, _⟩
  · rfl
  · rfl
  · rw [isVacant, isVacant, Bool.eq_iff_iff, List.isEmpty_iff_length_eq_zero,
      List.isEmpty_iff_length_eq_zero, length_of_agreesItems hitems]
  · rfl

theorem quantity?_of_agrees (h : v.agrees w = true) : v.quantity? = w.quantity? := by
  rcases cases_of_agrees h with rfl | ⟨_, _, rfl, rfl, hvalue⟩ | ⟨_, _, rfl, rfl, _⟩ |
    ⟨_, _, rfl, rfl, _⟩
  · rfl
  · exact congrArg some hvalue
  · rfl
  · rfl

theorem length?_of_agrees (h : v.agrees w = true) : v.length? = w.length? := by
  rcases cases_of_agrees h with rfl | ⟨_, _, rfl, rfl, _⟩ | ⟨_, _, rfl, rfl, hitems⟩ |
    ⟨_, _, rfl, rfl, hfields⟩
  · rfl
  · rfl
  · exact congrArg some (length_of_agreesItems hitems)
  · exact congrArg some (length_of_agreesFields hfields)

theorem memberOf_of_agrees (h : v.agrees w = true) (items : List Json) :
    v.memberOf items = w.memberOf items := by
  unfold memberOf
  rw [funext (same_congr h)]

end Json

open Json

variable {v w : Json}

theorem PropertyKind.admits_of_agrees (h : v.agrees w = true) (kind : PropertyKind)
    (options : List String) : kind.admits options v = kind.admits options w := by
  rcases cases_of_agrees h with rfl | ⟨x, y, rfl, rfl, hvalue⟩ | ⟨as, bs, rfl, rfl, hitems⟩ |
    ⟨_, _, rfl, rfl, _⟩
  · rfl
  · cases kind <;> rfl
  · cases kind with
    | choices =>
      apply congrArg Except.ok
      apply all_of_agreesItems _ hitems
      intro a b hab
      rcases cases_of_agrees hab with rfl | ⟨_, _, rfl, rfl, _⟩ | ⟨_, _, rfl, rfl, _⟩ |
        ⟨_, _, rfl, rfl, _⟩ <;> rfl
    | _ => rfl
  · cases kind <;> rfl

theorem isHeldBy_of_agrees (h : v.agrees w = true) (limit : Json) :
    isHeldBy v limit = isHeldBy w limit := by
  cases limit with
  | arr items => exact congrArg Except.ok (memberOf_of_agrees h items)
  | _ =>
    rcases cases_of_agrees h with rfl | ⟨_, _, rfl, rfl, _⟩ | ⟨_, _, rfl, rfl, _⟩ |
      ⟨_, _, rfl, rfl, _⟩ <;> rfl

theorem Rule.admits_of_agrees (h : v.agrees w = true) (r : Rule) : r.admits v = r.admits w := by
  unfold Rule.admits
  cases r.check with
  | pattern =>
    rcases cases_of_agrees h with rfl | ⟨_, _, rfl, rfl, _⟩ | ⟨_, _, rfl, rfl, _⟩ |
      ⟨_, _, rfl, rfl, _⟩ <;> rfl
  | min | max => simp only [quantity?_of_agrees h]
  | minLength | maxLength => simp only [length?_of_agrees h]
  | oneOf => exact isHeldBy_of_agrees h r.limit

section Properties

variable {properties properties' : Table Json} {name : String}

theorem given?_eq_none_of_agrees (h : properties.sameBy agrees properties' = true)
    (absent : given? properties name = none) : given? properties' name = none := by
  have hmatch := Table.sameBy_iff_matches.mp h
  unfold given? at absent ⊢
  cases hold : properties.get? name with
  | none => rw [hmatch.get?_eq_none hold, Option.filter_none]
  | some v =>
    obtain ⟨w, hnew, hagree⟩ := hmatch.exists_of_get? hold
    rw [hold, Option.filter_some, isVacant_of_agrees hagree] at absent
    rw [hnew, Option.filter_some]
    cases hw : w.isVacant with
    | true => rfl
    | false => simp [hw] at absent

theorem exists_given?_of_agrees (h : properties.sameBy agrees properties' = true)
    (given : given? properties name = some v) :
    ∃ w, given? properties' name = some w ∧ v.agrees w = true := by
  have hmatch := Table.sameBy_iff_matches.mp h
  obtain ⟨hold, hvacant⟩ := Option.filter_eq_some_iff.mp given
  obtain ⟨w, hnew, hagree⟩ := hmatch.exists_of_get? hold
  rw [isVacant_of_agrees hagree] at hvacant
  exact ⟨w, Option.filter_eq_some_iff.mpr ⟨hnew, hvacant⟩, hagree⟩

theorem Property.Accepts.of_agrees {q : Property} (h : properties.sameBy agrees properties' = true)
    (accepts : q.Accepts properties) : q.Accepts properties' := by
  unfold Property.Accepts at accepts ⊢
  cases hold : given? properties q.id with
  | none =>
    rw [given?_eq_none_of_agrees h hold]
    simpa [hold] using accepts
  | some v =>
    obtain ⟨w, hnew, hagree⟩ := exists_given?_of_agrees h hold
    rw [hold] at accepts
    rw [hnew]
    exact (q.kind.admits_of_agrees hagree _).symm.trans accepts

theorem Rule.Accepts.of_agrees {r : Rule} (h : properties.sameBy agrees properties' = true)
    (accepts : r.Accepts properties) : r.Accepts properties' := by
  intro w given
  -- a value that is given now was given before, since agreement has none against none
  cases hold : given? properties r.property with
  | none => exact nomatch (given?_eq_none_of_agrees h hold).symm.trans given
  | some v =>
    obtain ⟨w', hnew, hagree⟩ := exists_given?_of_agrees h hold
    obtain rfl := Option.some.inj (given.symm.trans hnew)
    exact (r.admits_of_agrees hagree).symm.trans (accepts v hold)

end Properties

end GraphWorkbench

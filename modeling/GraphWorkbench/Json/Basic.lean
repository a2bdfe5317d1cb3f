import GraphWorkbench.Numeric.Binary64
import GraphWorkbench.Table
/-!
The values of the exchange format. An object keeps its members in order, and a number is an
integer of any size or a binary number; the two kinds are told apart by `=`, and compared by value
by `same`.
-/
namespace GraphWorkbench

/-- A value of the exchange format. -/
inductive Json where
  | null
  | bool (b : Bool)
  | int (n : Int)
  | float (x : Binary64)
  | str (s : String)
  | arr (items : List Json)
  | obj (fields : List (String × Json))
deriving Inhabited

namespace Json

mutual
/-- Sameness of form: kinds, digits and order all count. -/
def beq : Json → Json → Bool
  | .null, .null => true
  | .bool a, .bool b => a == b
  | .int a, .int b => a == b
  | .float a, .float b => a == b
  | .str a, .str b => a == b
  | .arr a, .arr b => beqItems a b
  | .obj a, .obj b => beqFields a b
  | _, _ => false
def beqItems : List Json → List Json → Bool
  | [], [] => true
  | a :: as, b :: bs => beq a b && beqItems as bs
  | _, _ => false
def beqFields : List (String × Json) → List (String × Json) → Bool
  | [], [] => true
  | (k, a) :: as, (l, b) :: bs => k == l && beq a b && beqFields as bs
  | _, _ => false
end

mutual
theorem eq_of_beq : ∀ (a b : Json), beq a b = true → a = b
  | .null, b, h => by cases b <;> simp_all [beq]
  | .bool _, b, h => by cases b <;> simp_all [beq]
  | .int _, b, h => by cases b <;> simp_all [beq]
  | .float _, b, h => by cases b <;> simp_all [beq]
  | .str _, b, h => by cases b <;> simp_all [beq]
  | .arr as, b, h => by
    cases b with
    | arr bs => rw [beq] at h; rw [eq_of_beqItems as bs h]
    | _ => simp [beq] at h
  | .obj as, b, h => by
    cases b with
    | obj bs => rw [beq] at h; rw [eq_of_beqFields as bs h]
    | _ => simp [beq] at h
theorem eq_of_beqItems : ∀ (as bs : List Json), beqItems as bs = true → as = bs
  | [], bs, h => by cases bs <;> simp_all [beqItems]
  | a :: as, bs, h => by
    cases bs with
    | nil => simp [beqItems] at h
    | cons b bs =>
      simp only [beqItems, Bool.and_eq_true] at h
      rw [eq_of_beq a b h.1, eq_of_beqItems as bs h.2]
theorem eq_of_beqFields : ∀ (as bs : List (String × Json)), beqFields as bs = true → as = bs
  | [], bs, h => by cases bs <;> simp_all [beqFields]
  | (k, a) :: as, bs, h => by
    cases bs with
    | nil => simp [beqFields] at h
    | cons b bs =>
      obtain ⟨l, b⟩ := b
      simp only [beqFields, Bool.and_eq_true, beq_iff_eq] at h
      rw [h.1.1, eq_of_beq a b h.1.2, eq_of_beqFields as bs h.2]
end

mutual
theorem beq_self : ∀ a : Json, beq a a = true
  | .null | .bool _ | .int _ | .float _ | .str _ => by simp [beq]
  | .arr as => by simp [beq, beqItems_self as]
  | .obj as => by simp [beq, beqFields_self as]
theorem beqItems_self : ∀ as : List Json, beqItems as as = true
  | [] => rfl
  | a :: as => by simp [beqItems, beq_self a, beqItems_self as]
theorem beqFields_self : ∀ as : List (String × Json), beqFields as as = true
  | [] => rfl
  | (k, a) :: as => by simp [beqFields, beq_self a, beqFields_self as]
end

instance : DecidableEq Json := fun a b =>
  decidable_of_iff (beq a b = true) ⟨eq_of_beq a b, fun h => h ▸ beq_self a⟩

/-- The value of a number; a truth value counts as one or zero. -/
def number? : Json → Option Extended
  | .bool b => some (.ofInt (if b then 1 else 0))
  | .int n => some (.ofInt n)
  | .float x => some x.value
  | _ => none

mutual
/-- Sameness of value: numbers and truth values by magnitude, objects whatever their order. -/
def same : Json → Json → Bool
  | .null, b => match b with | .null => true | _ => false
  | .str a, b => match b with | .str b => a == b | _ => false
  | .bool a, b => match b.number? with
    | some y => (Extended.ofInt (if a then 1 else 0)).alike y
    | none => false
  | .int a, b => match b.number? with | some y => (Extended.ofInt a).alike y | none => false
  | .float a, b => match b.number? with | some y => a.value.alike y | none => false
  | .arr as, b => match b with | .arr bs => sameItems as bs | _ => false
  | .obj as, b => match b with
    | .obj bs => as.length == bs.length && sameFields as bs
    | _ => false
def sameItems : List Json → List Json → Bool
  | [], bs => bs.isEmpty
  | a :: as, bs => match bs with | b :: bs => same a b && sameItems as bs | [] => false
/-- Every listed member has a member of the same value in the other object. -/
def sameFields : List (String × Json) → List (String × Json) → Bool
  | [], _ => true
  | (k, a) :: as, bs =>
    (match Entries.get? k bs with | some b => same a b | none => false) && sameFields as bs
end

mutual
/-- A value as it can be written out: a number that is not finite becomes null. -/
def portable : Json → Json
  | .float x => if x.isFinite then .float x else .null
  | .arr items => .arr (portableItems items)
  | .obj fields => .obj (portableFields fields)
  | v => v
def portableItems : List Json → List Json
  | [] => []
  | v :: rest => portable v :: portableItems rest
def portableFields : List (String × Json) → List (String × Json)
  | [] => []
  | (k, v) :: rest => (k, portable v) :: portableFields rest
end

/-- Whether a value counts as true: all but null, false, zero and what is empty. -/
def isTruthy : Json → Bool
  | .null => false
  | .bool b => b
  | .int n => n != 0
  | .float x => !x.isZero
  | .str s => s != ""
  | .arr items => !items.isEmpty
  | .obj fields => !fields.isEmpty

/-- Whether a list holds a value, by `same`. -/
def memberOf (a : Json) (items : List Json) : Bool := items.any (same a)

def str? : Json → Option String
  | .str s => some s
  | _ => none

def arr? : Json → Option (List Json)
  | .arr items => some items
  | _ => none

def obj? : Json → Option (List (String × Json))
  | .obj fields => some fields
  | _ => none

def isNull : Json → Bool
  | .null => true
  | _ => false

/-- A member of an object; none when there is no such member or no object. -/
def get? (key : String) : Json → Option Json
  | .obj fields => Entries.get? key fields
  | _ => none

def ofTable (t : Table Json) : Json := .obj t.entries

/-- A text or null. -/
def ofString? : Option String → Json
  | some s => .str s
  | none => .null

def ofStrings (ss : List String) : Json := .arr (ss.map .str)

end Json

end GraphWorkbench

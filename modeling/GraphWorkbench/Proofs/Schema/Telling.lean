import GraphWorkbench.Schema.Decode
/-!
Readers that say why they refuse. A reader that has no answer has at least one issue; this passes
from the readers of parts to the reader of the whole.
-/
namespace GraphWorkbench.Schema

variable {α β : Type}

/-- If there is no answer, there is an issue. -/
def Tells (x : Decoded α) : Prop := x ≠ .error []

/-- A reader with an answer or an issue for every value. -/
def Explains (d : Json → Decoded α) : Prop := ∀ v, Tells (d v)

namespace Tells

theorem ok (a : α) : Tells (.ok a : Decoded α) := by simp [Tells]

theorem fault (flaw : Flaw) : Tells (fault flaw : Decoded α) := by simp [Tells, Schema.fault]

theorem under {step : Step} {x : Decoded α} (h : Tells x) : Tells (x.under step) := by
  cases x with
  | ok a => exact ok a
  | error issues =>
    have hsome : issues ≠ [] := fun hnil => h (congrArg Except.error hnil)
    simpa [Tells, Decoded.under] using hsome

theorem ap {f : Decoded (α → β)} {x : Decoded α} (hf : Tells f) (hx : Tells x) :
    Tells (f.ap x) := by
  cases f with
  | ok g =>
    cases x with
    | ok a => exact ok (g a)
    | error issues => simpa [Tells, Decoded.ap] using hx
  | error before =>
    have hsome : before ≠ [] := fun hnil => hf (congrArg Except.error hnil)
    cases x with
    | ok a => simpa [Tells, Decoded.ap] using hsome
    | error issues => simp [Tells, Decoded.ap, hsome]

variable {fields : Fields} {name plain : String} {d : Json → Decoded α}

theorem required (h : Explains d) : Tells (required fields name plain d) := by
  unfold Schema.required
  split
  · exact (h _).under
  · exact (fault _).under

theorem optional {fallback : α} (h : Explains d) :
    Tells (optional fields name plain fallback d) := by
  unfold Schema.optional
  split
  · exact (h _).under
  · exact ok _

end Tells

namespace Explains

variable {d : Json → Decoded α}

theorem string : Explains string := fun v => by
  cases v with
  | str s => exact .ok s
  | _ => exact .fault _

theorem nonEmpty : Explains nonEmpty := fun v => by
  cases v with
  | str s =>
    rw [Schema.nonEmpty]
    split
    · exact .fault _
    · exact .ok s
  | _ => exact .fault _

theorem formed {form : String} {fits : List Char → Bool} :
    Explains (formed form fits) := fun v => by
  cases v with
  | str s =>
    rw [Schema.formed]
    split
    · exact .ok s
    · exact .fault _
  | _ => exact .fault _

theorem oneOf {choices : List (String × α)} : Explains (oneOf choices) := fun v => by
  cases v with
  | str s =>
    rw [Schema.oneOf]
    split
    · exact .ok _
    · exact .fault _
  | _ => exact .fault _

theorem truthOfInt (n : Int) : Tells (truthOfInt n) := by
  unfold Schema.truthOfInt
  split
  · exact .ok false
  · split
    · exact .ok true
    · exact .fault _

theorem boolean : Explains boolean := fun v => by
  cases v with
  | bool b => exact .ok b
  | int n =>
    rw [Schema.boolean]
    split
    · exact truthOfInt n
    · exact .fault _
  | float x =>
    rw [Schema.boolean]
    split
    next n _ =>
      split
      · exact truthOfInt n
      · exact .fault _
    next => exact .fault _
  | str s =>
    rw [Schema.boolean]
    split
    · exact .ok _
    · exact .fault _
  | _ => exact .fault _

theorem integer : Explains integer := fun v => by
  cases v with
  | int n => exact .ok n
  | bool b => exact .ok _
  | str s =>
    rw [Schema.integer]
    split
    · exact .fault _
    · split
      · exact .ok _
      · exact .fault _
  | float x =>
    rw [Schema.integer]
    split
    · exact .fault _
    · split
      · exact .fault _
      · split
        · exact .ok _
        · exact .fault _
  | _ => exact .fault _

theorem number : Explains number := fun v => by
  cases v with
  | float x => exact .ok x
  | int n =>
    change Tells (if (Binary64.ofInt n).isFinite = true then .ok _ else Schema.fault _)
    split
    · exact .ok _
    · exact .fault _
  | bool b => exact .ok _
  | str s =>
    rw [Schema.number]
    split
    · exact .ok _
    · exact .fault _
  | _ => exact .fault _

theorem anything : Explains anything := fun v => .ok v

theorem anyTable : Explains anyTable := fun v => by
  cases v with
  | obj fields => exact .ok _
  | _ => exact .fault _

theorem checked {test : α → Option Flaw} (h : Explains d) : Explains (checked test d) := fun v => by
  have hv := h v
  unfold Schema.checked
  cases hread : d v with
  | ok a =>
    simp only
    split
    · exact .ok _
    · exact .fault _
  | error issues =>
    rw [hread] at hv
    exact fun hnil => hv (congrArg Except.error (Except.error.inj hnil))

theorem nullable (h : Explains d) : Explains (nullable d) := fun v => by
  have hv := h v
  unfold Schema.nullable
  split
  · exact .ok _
  · split
    · exact .ok _
    next hread =>
      rw [hread] at hv
      exact fun hnil => hv (congrArg Except.error (Except.error.inj hnil))

theorem listOf (h : Explains d) : Explains (listOf d) := by
  have hitems : ∀ i items, Tells (itemsFrom d i items) := by
    intro i items
    induction items generalizing i with
    | nil => exact .ok _
    | cons v rest ih => exact ((Tells.ok _).ap (h v).under).ap (ih _)
  intro v
  cases v with
  | arr items => exact hitems 0 items
  | _ => exact .fault _

theorem record {name : String} {r : Fields → Decoded α} (h : ∀ fields, Tells (r fields)) :
    Explains (record name r) := by
  intro v
  cases v with
  | obj fields => exact h fields
  | _ => exact .fault _

end Explains

end GraphWorkbench.Schema

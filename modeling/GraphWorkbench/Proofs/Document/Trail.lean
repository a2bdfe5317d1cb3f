import GraphWorkbench.Document.Draft
import GraphWorkbench.Proofs.Place
/-!
Trails of changes. A change leads from one table to another when what it says of the first one is
true; its inverse then leads back, so a trail of changes can be walked in both directions and ends
at exactly the document at which it began.
-/
namespace GraphWorkbench

variable {α : Type}

/-- A change leads from a table to another: the place that it names is the place of its key, and the
value before it is the one that stands there. -/
inductive Change.Leads : Table α → Change α → Table α → Prop
  | insert {t t' : Table α} {key : String} {value : α} {before after : List (String × α)}
      (at_place : t.entries = before ++ after) (fresh : t.has key = false)
      (result : t'.entries = before ++ (key, value) :: after) :
      Leads t (.insert key before.length value) t'
  | delete {t t' : Table α} {key : String} {value : α} {before after : List (String × α)}
      (at_place : t.entries = before ++ (key, value) :: after)
      (result : t'.entries = before ++ after) :
      Leads t (.delete key before.length value) t'
  | replace {t t' : Table α} {key : String} {old value : α} {before after : List (String × α)}
      (at_place : t.entries = before ++ (key, old) :: after)
      (result : t'.entries = before ++ (key, value) :: after) :
      Leads t (.replace key before.length old value) t'

namespace Change.Leads

variable {t t' : Table α} {c : Change α}

theorem apply_eq (h : c.Leads t t') : c.apply t = .ok t' := by
  cases h with
  | insert hp hf hr =>
    exact congrArg Except.ok (Table.ext ((Table.entries_insertAt hp hf).trans hr.symm))
  | delete hp hr =>
    rw [Change.apply, if_pos (Table.has_of_at hp)]
    exact congrArg Except.ok (Table.ext ((Table.entries_erase_at hp).trans hr.symm))
  | replace hp hr =>
    exact congrArg Except.ok (Table.ext ((Table.entries_put_at hp).trans hr.symm))

/-- The inverse of a change leads back. -/
theorem inverse (h : c.Leads t t') : c.inverse.Leads t' t := by
  cases h with
  | insert hp _ hr => exact .delete hr hp
  | delete hp hr =>
    refine .insert hr ?_ hp
    have he : t' = t.erase _ := Table.ext (hr.trans (Table.entries_erase_at hp).symm)
    rw [he]
    exact Table.has_erase_self
  | replace hp hr => exact .replace hr hp

end Change.Leads

/-- A change of an element leads from a document to another that differs in one table only. -/
inductive ElementChange.Leads : Document → ElementChange → Document → Prop
  | node {d : Document} {c : Change Node} {nodes : Table Node} (h : c.Leads d.nodes nodes) :
      Leads d (.node c) { d with nodes }
  | edge {d : Document} {c : Change Edge} {edges : Table Edge} (h : c.Leads d.edges edges) :
      Leads d (.edge c) { d with edges }

namespace ElementChange.Leads

variable {d d' : Document} {c : ElementChange}

theorem apply_eq (h : c.Leads d d') : c.apply d = .ok d' := by
  cases h with
  | node h => rw [ElementChange.apply, h.apply_eq]; rfl
  | edge h => rw [ElementChange.apply, h.apply_eq]; rfl

theorem inverse (h : c.Leads d d') : c.inverse.Leads d' d := by
  cases h with
  | @node c nodes h => exact .node (d := { d with nodes }) h.inverse
  | @edge c edges h => exact .edge (d := { d with edges }) h.inverse

end ElementChange.Leads

/-- Changes that lead, one after the other, from a document to another. -/
inductive Trail : Document → Patch → Document → Prop
  | nil (d : Document) : Trail d [] d
  | cons {d mid d' : Document} {c : ElementChange} {rest : Patch}
      (head : c.Leads d mid) (tail : Trail mid rest d') : Trail d (c :: rest) d'

namespace Trail

variable {d mid d' : Document} {p q : Patch}

theorem single {c : ElementChange} (h : c.Leads d d') : Trail d [c] d' := .cons h (.nil d')

theorem eq_of_nil (h : Trail d [] d') : d = d' := by
  cases h
  rfl

theorem append (h : Trail d p mid) (h' : Trail mid q d') : Trail d (p ++ q) d' := by
  induction h with
  | nil => exact h'
  | cons head _ ih => exact .cons head (ih h')

theorem apply_eq (h : Trail d p d') : p.apply d = .ok d' := by
  induction h with
  | nil => rfl
  | @cons d mid d' c rest head _ ih =>
    calc Patch.apply d (c :: rest)
        = (c.apply d >>= fun d => Patch.apply d rest) := List.foldlM_cons
      _ = .ok d' := by rw [head.apply_eq]; exact ih

/-- The inverse patch leads all the way back. -/
theorem inverse (h : Trail d p d') : Trail d' p.inverse d := by
  induction h with
  | nil d => exact .nil d
  | @cons d mid d' c rest head _ ih =>
    have hi : Patch.inverse (c :: rest) = rest.inverse ++ [c.inverse] := by simp [Patch.inverse]
    rw [hi]
    exact ih.append (single head.inverse)

/-- Undoing the changes of a trail, the latest first, meets no fault. -/
theorem undoAll_eq {log : List ElementChange} (h : Trail d log.reverse d') :
    Draft.undoAll d' log = (d, none) := by
  -- the head of the log is the last change of the trail, so the inverse trail begins with it
  induction log generalizing d' with
  | nil => cases h; rfl
  | cons c rest ih =>
    have hi := h.inverse
    rw [List.reverse_cons, Patch.inverse, List.reverse_append, List.reverse_singleton,
      List.singleton_append, List.map_cons] at hi
    cases hi with
    | @cons _ mid _ _ _ head tail =>
      have hb : Trail d rest.reverse mid := by
        simpa [Patch.inverse, Function.comp_def] using tail.inverse
      rw [Draft.undoAll, head.apply_eq]
      exact ih hb

end Trail

end GraphWorkbench

import GraphWorkbench.Document.Patch
/-!
Histories: the committed patches that can be undone, of which only the latest are kept, and the
undone ones that can be done again.
-/
namespace GraphWorkbench

/-- A committed patch under its label. -/
structure Commit where
  label : String
  patch : Patch
deriving DecidableEq

/-- Commits to be undone and to be redone, each list with the next one first. -/
structure History where
  limit : Nat
  past : List Commit := []
  future : List Commit := []
  limit_pos : 0 < limit

namespace History

/-- An empty history, which keeps at least one commit. -/
def ofLimit (limit : Int) : Except Fault History :=
  if h : 0 < limit.toNat then .ok { limit := limit.toNat, limit_pos := h }
  else .error (.malformed "history limit must be at least 1")

/-- Puts a commit on top; the oldest goes when there are too many, and nothing is left to redo. -/
def record (h : History) (c : Commit) : History :=
  { h with past := (c :: h.past).take h.limit, future := [] }

/-- Takes the latest commit back. -/
def undo (h : History) : Option (Commit × History) :=
  match h.past with
  | [] => none
  | c :: past => some (c, { h with past, future := c :: h.future })

/-- Brings the commit back that was undone last. -/
def redo (h : History) : Option (Commit × History) :=
  match h.future with
  | [] => none
  | c :: future => some (c, { h with past := (c :: h.past).take h.limit, future })

def canUndo (h : History) : Bool := !h.past.isEmpty

def canRedo (h : History) : Bool := !h.future.isEmpty

def clear (h : History) : History := { h with past := [], future := [] }

/-- The commits to be undone, the oldest first, with the number of changes of each. -/
def entries (h : History) : List (String × Nat) :=
  h.past.reverse.map fun c => (c.label, c.patch.length)

end History

end GraphWorkbench

import GraphWorkbench.Preset.Words
import GraphWorkbench.Report
/-!
A registry of rule kinds, each of which can be taken once. A frozen view is the registry as it stood
at that moment.
-/
namespace GraphWorkbench

/-- What is registered under the kinds taken so far. -/
structure Registry (α : Type) where
  rules : Table α := .empty

namespace Registry

variable {α : Type}

def register (r : Registry α) (kind : String) (rule : α) : Except Fault (Registry α) :=
  if r.rules.has kind then .error (.malformed s!"Rule kind '{kind}' is already registered")
  else .ok ⟨r.rules.put kind rule⟩

/-- Registers rules in order, up to the first whose kind is taken. -/
def registerAll (r : Registry α) : List (String × α) → Registry α × Option Fault
  | [] => (r, none)
  | (kind, rule) :: rest => match r.register kind rule with
    | .ok r' => registerAll r' rest
    | .error f => (r, some f)

def get? (r : Registry α) (kind : String) : Option α := r.rules.get? kind

/-- The kinds that are taken, sorted. -/
def kinds (r : Registry α) : List String := r.rules.keys.mergeSort (· ≤ ·)

end Registry

/-- The kinds that every registry of rules starts from, in the order in which they are taken. -/
def DerivationKind.all : List DerivationKind :=
  [.byType, .neighbors, .path, .propertyMatch, .transitive]

/-- The kinds of derivations under their words. -/
def Registry.builtin : List (String × DerivationKind) := DerivationKind.all.map fun k => (k.word, k)

end GraphWorkbench

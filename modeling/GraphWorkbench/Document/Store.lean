import GraphWorkbench.Document.Exchange
import GraphWorkbench.Document.History
import GraphWorkbench.Document.Notice
/-!
The store of a document: its state, its history and the notices given of it. Every state that is
committed gets a number.
-/
namespace GraphWorkbench

structure Store where
  preset : Preset
  document : Document
  history : History
  log : EventLog Notice
  revision : Nat := 0

namespace Store

/-- A store with an empty history, which keeps as many commits as asked for or, when none or zero is
asked for, as the preset says. -/
def create (p : Preset) (d : Document) (historyLimit : Option Int)
    (log : EventLog Notice) : Except Fault Store := do
  let asked := historyLimit.getD 0
  let history ← History.ofLimit (if asked = 0 then p.behavior.historyLimit else asked)
  return { preset := p, document := d, history, log }

/-- Makes a document the next state and tells of it. -/
def advance (s : Store) (d : Document) (history : History) (label : String) : Store :=
  let revision := s.revision + 1
  { s with document := d, history, revision, log := s.log.record (.changed d label revision) }

/-- Commits a mutation. The answer tells whether anything changed; a rejection is given notice of.
-/
def apply (s : Store) (m : Mutation) : Store × Except Stop Bool :=
  match Draft.plan s.preset s.document m with
  | .error (.rejected r) => ({ s with log := s.log.record (.refused r) }, .error (.rejected r))
  | .error stop => (s, .error stop)
  | .ok (patch, d) =>
    if patch.isEmpty then (s, .ok false)
    else (s.advance d (s.history.record ⟨m.label, patch⟩) m.label, .ok true)

/-- Takes the latest commit back. The answer tells whether there was one. -/
def undo (s : Store) : Store × Except Fault Bool :=
  match s.history.undo with
  | none => (s, .ok false)
  | some (c, history) => match c.patch.inverse.apply s.document with
    | .ok d => (s.advance d history s!"Undo {c.label}", .ok true)
    | .error f => ({ s with history }, .error f)

/-- Brings back what was undone last. The answer tells whether there was anything. -/
def redo (s : Store) : Store × Except Fault Bool :=
  match s.history.redo with
  | none => (s, .ok false)
  | some (c, history) => match c.patch.apply s.document with
    | .ok d => (s.advance d history s!"Redo {c.label}", .ok true)
    | .error f => ({ s with history }, .error f)

/-- Replaces the document by another one; the history is forgotten. -/
def load (s : Store) (d : Document) : Store := s.advance d s.history.clear "Load document"

end Store

end GraphWorkbench

import GraphWorkbench.Preset.Migration
import GraphWorkbench.Json.Source
import GraphWorkbench.Library.Topology
import GraphWorkbench.Library.ThreatModel
/-!
Getting presets: the ones that come with the library, and those read from files of any supported
format.
-/
namespace GraphWorkbench.Library

/-- The presets that come with the library, by the names under which they are asked for. -/
def shipped : List (String × Preset) := [("threat-model", threatModel), ("topo", topology)]

def names : List String := Entries.keys shipped

/-- A shipped preset. An unknown name is answered with the names that there are. -/
def find (name : String) : Except Fault Preset :=
  match Entries.get? name shipped with
  | some p => .ok p
  | none =>
    let known := ", ".intercalate names
    .error (.noKey s!"Unknown built-in preset '{name}'. Available: {known}")

/-- Reads, migrates and validates a preset file; one report holds everything that is wrong, but a
number of too many digits is a fault. -/
def load (source : Json.Source) : Except Fault (Except (List Violation) Preset) := do
  match source.read with
  | .error e =>
    if e.isLongInteger then throw (.malformed e.message)
    else return .error [⟨"root", s!"Invalid JSON: {e.message}", "invalid-json"⟩]
  | .ok raw =>
    match ← Migration.migrate raw .null with
    | .ok preset => return .ok preset
    | .error (.invalid violations) => return .error violations
    | .error refusal => return .error [⟨"version", refusal.message, refusal.code⟩]

/-- The heading of a report on a refused preset, with its first three violations. -/
def refusalText (violations : List Violation) : String :=
  let shown := "; ".intercalate ((violations.take 3).map fun v => s!"{v.path}: {v.message}")
  s!"Preset rejected ({violations.length} error(s)): {shown}"

def refusalJson (violations : List Violation) : Json :=
  Violation.reportJson "preset-load-error" (refusalText violations) violations

end GraphWorkbench.Library

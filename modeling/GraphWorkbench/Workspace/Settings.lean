import GraphWorkbench.Json.Literal
import GraphWorkbench.Report
import GraphWorkbench.Schema.Decode
import GraphWorkbench.Stix.Mapping
/-!
The settings of a workspace: how much is logged and kept, how an import is laid out, and the
preset to start with.
-/
namespace GraphWorkbench.Workspace

open Schema

structure Settings where
  logLevel : String := "INFO"
  passes : Int := 3
  columns : Int := 8
  spacing : Binary64 := 180
  eventLimit : Int := 500
  origins : List String := ["http://localhost:5173"]
  preset : String := "threat-model"
deriving DecidableEq

namespace Settings

/-- Reads settings by their names; one that is not given has the value it has by itself. -/
def decode (r : Fields) : Decoded Settings :=
  let field {α : Type} (name : String) (fallback : α) (d : Json → Decoded α) : Decoded α :=
    optional r name name fallback d
  (Decoded.build Settings.mk)
    |>.ap (field "log_level" "INFO" string)
    |>.ap (field "inference_max_passes" 3 (integerFrom 1))
    |>.ap (field "import_grid_columns" 8 (integerFrom 1))
    |>.ap (field "import_grid_spacing" 180 (numberAbove 0))
    |>.ap (field "event_history_limit" 500 (integerFrom 1))
    |>.ap (field "cors_origins" ["http://localhost:5173"] (listOf string))
    |>.ap (field "default_preset" "threat-model" string)

/-- How bundles are imported under the settings. -/
def importOptions (s : Settings) : Stix.Options := { columns := s.columns, spacing := .real s.spacing }

def logLevels : List String :=
  ["CRITICAL", "FATAL", "ERROR", "WARN", "WARNING", "INFO", "DEBUG", "NOTSET"]

/-- The level is one of those known, in letters of any size. -/
def checkLogLevel (s : Settings) : Except Fault Unit :=
  let level := s.logLevel.toUpper
  if logLevels.contains level then .ok ()
  else .error (.malformed s!"Unknown level: {(Json.str level).literal}")

end Settings

end GraphWorkbench.Workspace

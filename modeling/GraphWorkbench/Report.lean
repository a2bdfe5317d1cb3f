import GraphWorkbench.Schema.Issue
/-!
What is reported to a caller: collected violations, each with its place, and faults, which end an
operation that met a value it is not defined for.
-/
namespace GraphWorkbench

/-- One violation found in a preset or a document. -/
structure Violation where
  path : String
  message : String
  code : String := "invalid"
deriving DecidableEq, Inhabited

/-- The violation that an issue of shape amounts to, at a place that has a name of its own. -/
def Violation.ofIssue (whole : String) (issue : Schema.Issue) : Violation :=
  { path := if issue.path.isEmpty then whole else Schema.pathText issue.path
    message := issue.flaw.message
    code := issue.flaw.code }

def Violation.toJson (v : Violation) : Json :=
  .obj [("path", .str v.path), ("message", .str v.message), ("code", .str v.code)]

/-- A refusal as a record: its code, its heading and all violations behind it. -/
def Violation.reportJson (code heading : String) (violations : List Violation) : Json :=
  .obj [("code", .str code), ("message", .str heading),
    ("errors", .arr (violations.map Violation.toJson))]

/-- Why an operation came to no answer. -/
inductive Fault where
  /-- An operation met a kind of value that it does not take: an order between unlike values, a
  membership in what holds nothing, a list or an object where a key is needed. -/
  | wrongKind
  /-- A member was asked of a value that has no members. -/
  | noMember
  /-- There is nothing under a key. -/
  | noKey (key : String)
  /-- There is nothing at a place of a list. -/
  | noPlace
  /-- A walk starts at a node that the graph does not have. -/
  | notInGraph
  /-- A value is of the right kind, but what it says makes no sense. -/
  | malformed (text : String)
  /-- A text was used as a pattern and is none. -/
  | badPattern
  /-- A number is beyond all bounds. -/
  | outOfRange
  /-- A number is divided by zero. -/
  | divisionByZero
deriving DecidableEq, Inhabited

end GraphWorkbench

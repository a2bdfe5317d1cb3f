import GraphWorkbench.Stix.Bundle
import GraphWorkbench.Stix.Issue
import GraphWorkbench.Stix.Object
/-!
Sorting the entries of a bundle into valid objects, issues and unknown types. Of valid objects with
the same id the first one counts; an object that is not valid stands in nobody's way.
-/
namespace GraphWorkbench.Stix

/-- A valid object, with its fields in normal form and as they were given. -/
structure ValidObject where
  index : Nat
  kind : Kind
  id : String
  fields : List (String × Json)
  raw : List (String × Json)
deriving DecidableEq

/-- What becomes of an entry. -/
inductive Outcome where
  | valid (o : ValidObject)
  | issue (i : Issue)
  | unknown (u : UnknownType)
deriving DecidableEq

/-- The text before the first two hyphens in a row; none when there are none. -/
def beforeMark? : List Char → Option (List Char)
  | [] => none
  | [_] => none
  | a :: b :: rest =>
    if a = '-' ∧ b = '-' then some [] else (beforeMark? (b :: rest)).map (a :: ·)

/-- Whether an id starts with another type than the object's own. -/
def startsOtherwise (id type : String) : Bool :=
  match beforeMark? id.toList with
  | some start => start ≠ type.toList
  | none => false

/-- The issues of a record in one line; what concerns the record as a whole is told of the object.
-/
def describeIssues (issues : List Schema.Issue) : String :=
  "; ".intercalate <| issues.map fun i =>
    let place := Schema.pathText i.path
    let place := if place.isEmpty then "object" else place
    s!"{place}: {i.flaw.message}"

def idOf? (record : List (String × Json)) : Option String :=
  (Entries.get? "id" record).bind Json.str?

/-- Checks an object of a known kind by itself. -/
def checkObject (index : Nat) (k : Kind) (record : List (String × Json)) :
    Except IssueCause ValidObject := do
  match idOf? record with
  | some id => if startsOtherwise id k.word then throw (.otherPrefix id k.word)
  | none => pure ()
  match readObject k record with
  | .error issues => throw (.invalid (describeIssues issues))
  | .ok fields =>
    let bad := malformedReferences k fields
    if !bad.isEmpty then
      let refs := ", ".intercalate bad
      let name := (referenceList? k).getD ""
      throw (.invalid s!"{name} holds malformed id(s): {refs}")
    return { index, kind := k, id := (idOf? record).getD "", fields, raw := record }

/-- What becomes of an entry by itself. -/
def checkEntry (index : Nat) (entry : Json) : Outcome :=
  match entry with
  | .obj record =>
    let id := idOf? record
    match Entries.get? "type" record with
    | some (.str type) =>
      if type.isEmpty then .issue { index, id, cause := .noType }
      else match Kind.ofWord? type with
        | none => .unknown { index, type, id }
        | some k => match checkObject index k record with
          | .ok o => .valid o
          | .error cause => .issue { index, id, type := some type, cause }
    | _ => .issue { index, id, cause := .noType }
  | _ => .issue { index, cause := .notObject }

/-- What becomes of an entry after valid objects with given ids. -/
def checkAfter (seen : List String) (index : Nat) (entry : Json) : Outcome :=
  match checkEntry index entry with
  | .valid o =>
    if seen.contains o.id then
      .issue { index, id := some o.id, type := some o.kind.word, cause := .repeated o.id }
    else .valid o
  | outcome => outcome

/-- What becomes of entries, the first of them standing at place `index`. -/
def outcomesFrom (seen : List String) (index : Nat) : List Json → List Outcome
  | [] => []
  | entry :: rest =>
    let outcome := checkAfter seen index entry
    let seen := match outcome with
      | .valid o => o.id :: seen
      | _ => seen
    outcome :: outcomesFrom seen (index + 1) rest

def outcomes (b : Bundle) : List Outcome := outcomesFrom [] 0 b.objects

/-- The outcomes sorted by what they are. -/
structure ValidationReport where
  valid : List ValidObject
  issues : List Issue
  unknown : List UnknownType

def validate (b : Bundle) : ValidationReport :=
  let all := outcomes b
  { valid := all.filterMap fun | .valid o => some o | _ => none
    issues := all.filterMap fun | .issue i => some i | _ => none
    unknown := all.filterMap fun | .unknown u => some u | _ => none }

end GraphWorkbench.Stix

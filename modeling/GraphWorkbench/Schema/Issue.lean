import GraphWorkbench.Json.Literal
/-!
What can be wrong with a value that should have a certain shape, and where in it. Reading a record
goes on after a fault, so that one report names them all, in the order of the fields.
-/
namespace GraphWorkbench.Schema

/-- One step from a value to a part of it. -/
inductive Step where
  | key (name : String)
  | index (i : Nat)
deriving DecidableEq

def Step.text : Step → String
  | .key name => name
  | .index i => toString i

/-- What is wrong with one value. -/
inductive Flaw where
  | missing
  | notString
  | notBoolean
  | unreadableBoolean
  | notInteger
  | unreadableInteger
  | fractionalInteger
  | oversizedInteger
  | notFinite
  | notNumber
  | unreadableNumber
  | notList
  | notTable
  | notRecord (record : String)
  | notObject
  | noText
  | noItems
  | notAbove (bound : Int)
  | below (bound : Int)
  | above (bound : Int)
  | otherForm (form : String)
  | noneOf (choices : List String)
  | noTag (field : String)
  | unknownTag (field tag : String) (tags : List String)
  | notInstant
  | unreadableInstant (reason : String)
  | impossibleInstant (reason : String)
  | noOffset
  | rejected (reason : String)
deriving DecidableEq

/-- Quoted choices, the last one after a given word or mark. -/
def listed (lastSeparator : String) : List String → String
  | [] => ""
  | [c] => s!"'{c}'"
  | [c, d] => s!"'{c}'{lastSeparator}'{d}'"
  | c :: rest => s!"'{c}', {listed lastSeparator rest}"

def Flaw.code : Flaw → String
  | .missing => "missing"
  | .notString => "string_type"
  | .notBoolean => "bool_type"
  | .unreadableBoolean => "bool_parsing"
  | .notInteger => "int_type"
  | .unreadableInteger => "int_parsing"
  | .fractionalInteger => "int_from_float"
  | .oversizedInteger => "int_parsing_size"
  | .notFinite => "finite_number"
  | .notNumber => "float_type"
  | .unreadableNumber => "float_parsing"
  | .notList => "list_type"
  | .notTable => "dict_type"
  | .notRecord _ => "model_type"
  | .notObject => "model_attributes_type"
  | .noText => "string_too_short"
  | .noItems => "too_short"
  | .notAbove _ => "greater_than"
  | .below _ => "greater_than_equal"
  | .above _ => "less_than_equal"
  | .otherForm _ => "string_pattern_mismatch"
  | .noneOf _ => "literal_error"
  | .noTag _ => "union_tag_not_found"
  | .unknownTag _ _ _ => "union_tag_invalid"
  | .notInstant => "datetime_type"
  | .unreadableInstant _ => "datetime_from_date_parsing"
  | .impossibleInstant _ => "datetime_parsing"
  | .noOffset => "timezone_aware"
  | .rejected _ => "value_error"

def Flaw.message : Flaw → String
  | .missing => "Field required"
  | .notString => "Input should be a valid string"
  | .notBoolean => "Input should be a valid boolean"
  | .unreadableBoolean => "Input should be a valid boolean, unable to interpret input"
  | .notInteger => "Input should be a valid integer"
  | .unreadableInteger => "Input should be a valid integer, unable to parse string as an integer"
  | .fractionalInteger => "Input should be a valid integer, got a number with a fractional part"
  | .oversizedInteger => "Unable to parse input string as an integer, exceeded maximum size"
  | .notFinite => "Input should be a finite number"
  | .notNumber => "Input should be a valid number"
  | .unreadableNumber => "Input should be a valid number, unable to parse string as a number"
  | .notList => "Input should be a valid list"
  | .notTable => "Input should be a valid dictionary"
  | .notRecord record => s!"Input should be a valid dictionary or instance of {record}"
  | .notObject => "Input should be a valid dictionary or object to extract fields from"
  | .noText => "String should have at least 1 character"
  | .noItems => "List should have at least 1 item after validation, not 0"
  | .notAbove bound => s!"Input should be greater than {bound}"
  | .below bound => s!"Input should be greater than or equal to {bound}"
  | .above bound => s!"Input should be less than or equal to {bound}"
  | .otherForm form => s!"String should match pattern '{form}'"
  | .noneOf choices => "Input should be " ++ listed " or " choices
  | .noTag field => s!"Unable to extract tag using discriminator '{field}'"
  | .unknownTag field tag tags =>
    s!"Input tag '{tag}' found using '{field}' does not match any of the expected tags: " ++
      listed ", " tags
  | .notInstant => "Input should be a valid datetime"
  | .unreadableInstant reason => s!"Input should be a valid datetime or date, {reason}"
  | .impossibleInstant reason => s!"Input should be a valid datetime, {reason}"
  | .noOffset => "Input should have timezone info"
  | .rejected reason => s!"Value error, {reason}"

/-- A flaw with the place where it stands. -/
structure Issue where
  path : List Step
  flaw : Flaw
deriving DecidableEq

/-- The steps of a path joined by dots. -/
def pathText (path : List Step) : String := ".".intercalate (path.map Step.text)

/-- A value of the right shape, or everything that is wrong with the one at hand. -/
abbrev Decoded (α : Type) := Except (List Issue) α

def fault {α : Type} (flaw : Flaw) : Decoded α := .error [⟨[], flaw⟩]

namespace Decoded

variable {α β : Type}

/-- The start of a record: its constructor, which takes the fields one by one. -/
abbrev build (a : α) : Decoded α := .ok a

/-- Moves the issues of a part to where the part stands in the whole. -/
def under (step : Step) : Decoded α → Decoded α
  | .ok a => .ok a
  | .error issues => .error (issues.map fun i => { i with path := step :: i.path })

/-- Applies a function to a value; the issues of both are kept, in order. -/
def ap (f : Decoded (α → β)) (x : Decoded α) : Decoded β :=
  match f, x with
  | .ok f, .ok a => .ok (f a)
  | .ok _, .error issues => .error issues
  | .error issues, .ok _ => .error issues
  | .error before, .error issues => .error (before ++ issues)

@[simp] theorem under_ok (step : Step) (a : α) : under step (.ok a) = .ok a := rfl

@[simp] theorem ap_ok_ok (f : α → β) (a : α) : ap (.ok f) (.ok a) = .ok (f a) := rfl

/-- A whole is read exactly when all its parts are. -/
theorem ap_eq_ok_iff (f : Decoded (α → β)) (x : Decoded α) (b : β) :
    ap f x = .ok b ↔ ∃ g a, f = .ok g ∧ x = .ok a ∧ g a = b := by
  cases f <;> cases x <;> simp [ap]

end Decoded

end GraphWorkbench.Schema

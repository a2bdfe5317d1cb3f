import GraphWorkbench.Calendar.Iso
import GraphWorkbench.Document.Rejection
import GraphWorkbench.Pattern.Matcher
import GraphWorkbench.Pattern.Reader
import GraphWorkbench.Text.Url
/-!
Property values against their definitions and rules. A blank value is as good as none. A rule can
meet a limit that it is not defined for, which is a fault and no refusal.
-/
namespace GraphWorkbench

/-- Whether a value counts as not given. -/
def Json.isVacant : Json → Bool
  | .null => true
  | .str s => s.isEmpty
  | .arr items => items.isEmpty
  | _ => false

/-- The value of a number; truth values are none. -/
def Json.quantity? : Json → Option Extended
  | .int n => some (.ofInt n)
  | .float x => some x.value
  | _ => none

/-- The number of characters, items or members. -/
def Json.length? : Json → Option Nat
  | .str s => some s.length
  | .arr items => some items.length
  | .obj fields => some fields.length
  | _ => none

/-- Whether a value is of a kind, where a choice is among options. -/
def PropertyKind.admits (kind : PropertyKind) (options : List String) (v : Json) :
    Except Fault Bool :=
  let offered := fun (v : Json) => match v with
    | .str s => options.contains s
    | _ => false
  match kind, v with
  | .text, .str _ => .ok true
  | .number, v => .ok v.quantity?.isSome
  | .boolean, .bool _ => .ok true
  | .date, .str s => .ok (Calendar.isIsoDate s)
  | .url, .str s => (Url.isWeb s).mapError fun d => .malformed d.message
  | .choice, v => .ok (offered v)
  | .choices, .arr items => .ok (items.all offered)
  | _, _ => .ok false

/-- A test of a quantity against a limit, which must be a number or a truth value. -/
def comparedTo (limit : Json) (test : Extended → Extended → Bool) (x : Extended) :
    Except Fault Bool :=
  match limit.number? with
  | some bound => .ok (test x bound)
  | none => .error .wrongKind

/-- Whether some stretch of a text fits a pattern given as text. -/
def matchesPattern (pattern s : String) : Except Fault Bool :=
  match Pattern.compile pattern with
  | .ok compiled => .ok (compiled.foundIn s)
  | .error (.invalid _ _) => .error .badPattern
  | .error .tooManyRepeats => .error .outOfRange
  | .error .flagConflict => .error (.malformed "ASCII and UNICODE flags are incompatible")

/-- Whether one text stands somewhere in another. -/
def occursIn (part : List Char) : List Char → Bool
  | [] => part.isEmpty
  | c :: rest => part.isPrefixOf (c :: rest) || occursIn part rest

/-- Whether a value is held by another: an item of a list, a stretch of a text, a name of a
member. -/
def isHeldBy (v limit : Json) : Except Fault Bool :=
  match limit, v with
  | .arr items, v => .ok (v.memberOf items)
  | .str s, .str part => .ok (occursIn part.toList s.toList)
  | .obj fields, .str name => .ok (Entries.has name fields)
  | .obj _, .arr _ | .obj _, .obj _ => .error .wrongKind
  | .obj _, _ => .ok false
  | _, _ => .error .wrongKind

/-- Whether a value keeps a rule. -/
def Rule.admits (r : Rule) (v : Json) : Except Fault Bool :=
  match r.check, v with
  | .pattern, .str s => matchesPattern r.limit.text s
  | .pattern, _ => .ok false
  | .min, v => match v.quantity? with
    | some x => comparedTo r.limit (fun x bound => bound.le x) x
    | none => .ok false
  | .max, v => match v.quantity? with
    | some x => comparedTo r.limit Extended.le x
    | none => .ok false
  | .minLength, v => match v.length? with
    | some n => comparedTo r.limit (fun x bound => bound.le x) (.ofInt n)
    | none => .ok false
  | .maxLength, v => match v.length? with
    | some n => comparedTo r.limit Extended.le (.ofInt n)
    | none => .ok false
  | .oneOf, v => isHeldBy v r.limit

/-- Refuses an element for a property. -/
def refuse {α : Type} (element property : String) (defect : PropertyDefect) : Except Stop α :=
  .error (.rejected (.badProperty element property defect))

/-- The value of a property that is not vacant. -/
def given? (properties : Table Json) (name : String) : Option Json :=
  (properties.get? name).filter fun v => !v.isVacant

def Property.check (element : String) (properties : Table Json) (p : Property) :
    Except Stop Unit := do
  match given? properties p.id with
  | none => if p.required then refuse element p.id .missing
  | some v =>
    if !(← Stop.ofFault (p.kind.admits (p.options.getD []) v)) then
      refuse element p.id (.otherKind p.kind p.options)

def Rule.enforce (element : String) (properties : Table Json) (r : Rule) : Except Stop Unit := do
  match given? properties r.property with
  | none => return
  | some v =>
    if !(← Stop.ofFault (r.admits v)) then refuse element r.property (.againstRule r)

/-- The properties of an element against definitions and then rules, each in order. -/
def checkProperties (element : String) (definitions : List Property) (rules : List Rule)
    (properties : Table Json) : Except Stop Unit := do
  definitions.forM (Property.check element properties)
  rules.forM (Rule.enforce element properties)

end GraphWorkbench

import GraphWorkbench.Calendar.Instant
import GraphWorkbench.Json.Reader
import GraphWorkbench.Schema.Issue
import GraphWorkbench.Text.Letters
/-!
Reading typed values out of free-form ones. Scalars are read leniently: a text may hold a number, a
number may be a truth value, a whole binary number is an integer. A field is looked up first by its
name in the exchange format and then by its plain name.
-/
namespace GraphWorkbench.Schema

open Json (isDigit)

def string : Json → Decoded String
  | .str s => .ok s
  | _ => fault .notString

/-- A text of at least one character. -/
def nonEmpty : Json → Decoded String
  | .str s => if s.isEmpty then fault .noText else .ok s
  | _ => fault .notString

/-- A text of a given form, which is described by `form`. -/
def formed (form : String) (fits : List Char → Bool) : Json → Decoded String
  | .str s => if fits s.toList then .ok s else fault (.otherForm form)
  | _ => fault .notString

/-- One of a few words. -/
def oneOf {α : Type} (choices : List (String × α)) : Json → Decoded α
  | .str s => match Entries.get? s choices with
    | some a => .ok a
    | none => fault (.noneOf (Entries.keys choices))
  | _ => fault (.noneOf (Entries.keys choices))

def truthWords : List (String × Bool) :=
  [("0", false), ("off", false), ("f", false), ("false", false), ("n", false), ("no", false),
    ("1", true), ("on", true), ("t", true), ("true", true), ("y", true), ("yes", true)]

def truthOfInt (n : Int) : Decoded Bool :=
  if n = 0 then .ok false else if n = 1 then .ok true else fault .unreadableBoolean

/-- Integers that fit into sixty-four bits with a sign. -/
def fitsWord (n : Int) : Bool := -Nat.pow 2 63 ≤ n && n < Nat.pow 2 63

def boolean : Json → Decoded Bool
  | .bool b => .ok b
  | .int n => if fitsWord n then truthOfInt n else fault .notBoolean
  | .float x => match x.toInt? with
    | some n => if fitsWord n then truthOfInt n else fault .notBoolean
    | none => fault .notBoolean
  | .str s => match Entries.get? (String.ofList (s.toList.map Char.toLower)) truthWords with
    | some b => .ok b
    | none => fault .unreadableBoolean
  | _ => fault .notBoolean

/-- Digits without the single underscores that part them; none when an underscore stands
elsewhere. -/
def unparted? (cs : List Char) : Option (List Char) :=
  let tooClose := (cs.zip (cs.drop 1)).any fun p => p.1 == '_' && p.2 == '_'
  if cs.head? = some '_' || cs.getLast? = some '_' || tooClose then none
  else some (cs.filter (· != '_'))

/-- The text before a point that only zeros follow; the whole text when there is no point. -/
def beforeZeros? (cs : List Char) : Option (List Char) :=
  match cs.dropWhile (· != '.') with
  | [] => some cs
  | _ :: zeros => if zeros.all (· == '0') then some (cs.takeWhile (· != '.')) else none

/-- The integer that a text holds. -/
def integerOfText? (s : String) : Option Int := do
  let cs := Text.trimChars Text.isSpace s.toList
  let (negative, cs) := match cs with
    | '-' :: rest => (true, rest)
    | '+' :: rest => (false, rest)
    | cs => (false, cs)
  let digits ← unparted? (← beforeZeros? cs)
  if digits.isEmpty || !digits.all isDigit then none
  else
    let n : Int := Json.natOfDigits digits
    some (if negative then -n else n)

/-- An integer. A binary number must be whole and fit into a word. -/
def integer : Json → Decoded Int
  | .int n => .ok n
  | .bool b => .ok (if b then 1 else 0)
  | .str s =>
    if Text.digitLimit < s.length then fault .oversizedInteger
    else match integerOfText? s with
      | some n => .ok n
      | none => fault .unreadableInteger
  | .float x =>
    if !x.isFinite then fault .notFinite
    else match x.toInt? with
      | none => fault .fractionalInteger
      | some n => if fitsWord n then .ok n else fault .oversizedInteger
  | _ => fault .notInteger

/-- An unsigned decimal with an optional point and exponent, at least one digit standing around the
point. -/
def decimalOfText? (negative : Bool) (cs : List Char) : Option Binary64 :=
  let (whole, rest) := Json.spanDigits cs
  let (fraction, rest) := match rest with
    | '.' :: rest => Json.spanDigits rest
    | rest => ([], rest)
  if whole.isEmpty && fraction.isEmpty then none
  else
    let exponent? : Option Int :=
      if rest.isEmpty then some 0
      else match Json.exponent? rest with
        | some (e, []) => some e
        | _ => none
    exponent?.map fun e =>
      Binary64.ofDecimal negative (Json.natOfDigits (whole ++ fraction)) (e - fraction.length)

/-- The number that a text without blanks around it holds. -/
def bareNumber? (cs : List Char) : Option Binary64 :=
  let (negative, cs) := match cs with
    | '-' :: rest => (true, rest)
    | '+' :: rest => (false, rest)
    | cs => (false, cs)
  let word := String.ofList (cs.map Char.toLower)
  if word = "inf" ∨ word = "infinity" then some (Binary64.infinity negative)
  else if word = "nan" then some Binary64.nan
  else decimalOfText? negative cs

/-- The number that a text holds; underscores may part its digits when no blanks surround it. -/
def numberOfText? (s : String) : Option Binary64 :=
  (bareNumber? (Text.trimChars Text.isSpace s.toList)).orElse fun _ =>
    (unparted? s.toList).bind bareNumber?

def number : Json → Decoded Binary64
  | .float x => .ok x
  | .int n =>
    let x := Binary64.ofInt n
    if x.isFinite then .ok x else fault .notNumber
  | .bool b => .ok (if b then 1 else 0)
  | .str s => match numberOfText? s with
    | some x => .ok x
    | none => fault .unreadableNumber
  | _ => fault .notNumber

/-- An instant whose offset is known, in a year from one on. -/
def anchored (i : Calendar.Instant) : Decoded Calendar.Instant :=
  if i.offset.isNone then fault .noOffset
  else if i.year = 0 then fault (.impossibleInstant Calendar.InstantDefect.yearZero.message)
  else .ok i

def instant : Json → Decoded Calendar.Instant
  | .str s => match Calendar.Instant.ofText s with
    | .ok i => anchored i
    | .error defect => fault (.unreadableInstant defect.message)
  | .int n =>
    if !(Binary64.ofInt n).isFinite then fault .notInstant
    else match Calendar.Instant.ofInt n with
      | .ok i => anchored i
      | .error defect => fault (.impossibleInstant defect.message)
  | .float x => match Calendar.Instant.ofBinary x with
    | .ok i => anchored i
    | .error defect => fault (.impossibleInstant defect.message)
  | _ => fault .notInstant

/-- A value that passes a further test. -/
def checked {α : Type} (test : α → Option Flaw) (d : Json → Decoded α) (v : Json) : Decoded α :=
  match d v with
  | .ok a => match test a with
    | none => .ok a
    | some flaw => fault flaw
  | .error issues => .error issues

/-- An integer above a bound. -/
def integerAbove (bound : Int) : Json → Decoded Int :=
  checked (fun n => if n ≤ bound then some (.notAbove bound) else none) integer

def integerFrom (least : Int) : Json → Decoded Int :=
  checked (fun n => if n < least then some (.below least) else none) integer

def integerBetween (least most : Int) : Json → Decoded Int :=
  checked (fun n =>
    if most < n then some (.above most) else if n < least then some (.below least) else none) integer

/-- A number above a bound; what is no number at all is not above it. -/
def numberAbove (bound : Int) : Json → Decoded Binary64 :=
  checked (fun x =>
    if (Extended.ofInt bound).lt x.value then none else some (.notAbove bound)) number

/-- A number between bounds, of which the upper one is looked at first. -/
def numberBetween (least most : Int) : Json → Decoded Binary64 :=
  checked (fun x =>
    if !x.value.le (.ofInt most) then some (.above most)
    else if !(Extended.ofInt least).le x.value then some (.below least) else none) number

/-- Null, or a value. -/
def nullable {α : Type} (d : Json → Decoded α) : Json → Decoded (Option α)
  | .null => .ok none
  | v => match d v with
    | .ok a => .ok (some a)
    | .error issues => .error issues

def anything (v : Json) : Decoded Json := .ok v

/-- The items of a list, the first of them standing at place `i`. -/
def itemsFrom {α : Type} (d : Json → Decoded α) (i : Nat) : List Json → Decoded (List α)
  | [] => .ok []
  | v :: rest =>
    Decoded.ap (Decoded.ap (.ok List.cons) (Decoded.under (.index i) (d v))) (itemsFrom d (i + 1) rest)

def listOf {α : Type} (d : Json → Decoded α) : Json → Decoded (List α)
  | .arr items => itemsFrom d 0 items
  | _ => fault .notList

/-- A list of at least one item. -/
def someOf {α : Type} (d : Json → Decoded α) : Json → Decoded (List α) :=
  checked (fun items => if items.isEmpty then some .noItems else none) (listOf d)

/-- The values of members, each read under its name. -/
def membersOf {α : Type} (d : Json → Decoded α) :
    List (String × Json) → Decoded (List (String × α))
  | [] => .ok []
  | (k, v) :: rest =>
    Decoded.ap (Decoded.ap (.ok fun a rest => (k, a) :: rest) (Decoded.under (.key k) (d v)))
      (membersOf d rest)

def tableOf {α : Type} (d : Json → Decoded α) : Json → Decoded (Table α)
  | .obj fields => match membersOf d fields with
    | .ok entries => .ok (Table.ofEntries entries)
    | .error issues => .error issues
  | _ => fault .notTable

/-- A table of values of any kind. -/
def anyTable : Json → Decoded (Table Json)
  | .obj fields => .ok (Table.ofEntries fields)
  | _ => fault .notTable

abbrev Fields := List (String × Json)

/-- A field by its name in the exchange format or, failing that, by its plain name. -/
def lookup (name plain : String) (fields : Fields) : Option Json :=
  (Entries.get? name fields).or (Entries.get? plain fields)

/-- A field that must be there. -/
def required {α : Type} (fields : Fields) (name plain : String) (d : Json → Decoded α) : Decoded α :=
  match lookup name plain fields with
  | some v => Decoded.under (.key name) (d v)
  | none => Decoded.under (.key name) (fault .missing)

/-- A field that has a default. -/
def optional {α : Type} (fields : Fields) (name plain : String) (fallback : α)
    (d : Json → Decoded α) : Decoded α :=
  match lookup name plain fields with
  | some v => Decoded.under (.key name) (d v)
  | none => .ok fallback

/-- A record, which messages call by a given name. -/
def record {α : Type} (name : String) (d : Fields → Decoded α) : Json → Decoded α
  | .obj fields => d fields
  | _ => fault (.notRecord name)

end GraphWorkbench.Schema

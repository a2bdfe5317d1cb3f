import GraphWorkbench.Text.Letters
/-!
The forms that identifiers, colours, versions and references must have. A form speaks of a whole
text; `beforeLineEnd` gives the looser reading that ignores one line break at the end.
-/
namespace GraphWorkbench.Text

def isLowerOrDigit (c : Char) : Bool := ('a' ≤ c && c ≤ 'z') || ('0' ≤ c && c ≤ '9')

/-- Small letters, digits and hyphens, at least one. -/
def isIdForm (cs : List Char) : Bool :=
  !cs.isEmpty && cs.all fun c => isLowerOrDigit c || c == '-'

def idForm : String := "^[a-z0-9-]+$"

/-- A hash and six hexadecimal digits. -/
def isColorForm : List Char → Bool
  | '#' :: digits => digits.length == 6 && digits.all fun c =>
      c.isDigit || ('a' ≤ c && c ≤ 'f') || ('A' ≤ c && c ≤ 'F')
  | _ => false

def colorForm : String := "^#[0-9a-fA-F]\x7b6\x7d$"

/-- The parts of a text between points. -/
def pointParts (cs : List Char) : List (List Char) :=
  match cs with
  | [] => [[]]
  | c :: rest =>
    if c = '.' then [] :: pointParts rest
    else match pointParts rest with
      | part :: parts => (c :: part) :: parts
      | [] => [[c]]

/-- Three numbers with points between them, in digits of a given class. -/
def isVersionForm (digit : Char → Bool) (cs : List Char) : Bool :=
  let parts := pointParts cs
  parts.length == 3 && parts.all fun p => !p.isEmpty && p.all digit

def versionForm : String := "^\\d+\\.\\d+\\.\\d+$"

/-- A tail of at least one ASCII letter, digit or hyphen. -/
def isReferenceTail (cs : List Char) : Bool :=
  !cs.isEmpty && cs.all fun c => c.isAlphanum || c == '-'

/-- Whether two hyphens and a tail end a text that goes on with small letters, digits and hyphens.
-/
def isReferenceRest : List Char → Bool
  | [] => false
  | c :: rest =>
    (c == '-' && match rest with
      | '-' :: tail => isReferenceTail tail
      | _ => false) ||
    ((isLowerOrDigit c || c == '-') && isReferenceRest rest)

/-- A small letter, then small letters, digits or hyphens, then two hyphens and a tail. -/
def isReferenceForm : List Char → Bool
  | [] => false
  | c :: rest => ('a' ≤ c && c ≤ 'z') && isReferenceRest rest

def referenceForm : String := "^[a-z][a-z0-9-]*--[0-9A-Za-z-]+$"

/-- A text without one line break at its end. -/
def beforeLineEnd (cs : List Char) : List Char :=
  match cs.getLast? with
  | some '\n' => cs.dropLast
  | _ => cs

/-- A form of the text, or of the text before a line break at its end. -/
def fitsLine (form : List Char → Bool) (cs : List Char) : Bool := form cs || form (beforeLineEnd cs)

end GraphWorkbench.Text

import GraphWorkbench.Json.Basic
import GraphWorkbench.Text.Integer
/-!
Reading a value from text. A reading step gives back what is left of the text, with the fact that
something was consumed, so that every loop ends. A failure is told by its cause and by how much of
the text was still unread, from which line and column follow.
-/
namespace GraphWorkbench.Json

/-- What is wrong with a text. -/
inductive Defect where
  | valueExpected
  | nameExpected
  | colonExpected
  | commaExpected
  | extraData
  | unknownEscape
  | brokenCodeEscape
  | openString
  | controlCharacter
  | byteOrderMark
  | longInteger (digits : Nat)
deriving DecidableEq

def Defect.message : Defect → String
  | .valueExpected => "Expecting value"
  | .nameExpected => "Expecting property name enclosed in double quotes"
  | .colonExpected => "Expecting ':' delimiter"
  | .commaExpected => "Expecting ',' delimiter"
  | .extraData => "Extra data"
  | .unknownEscape => "Invalid \\escape"
  | .brokenCodeEscape => "Invalid \\uXXXX escape"
  | .openString => "Unterminated string starting at"
  | .controlCharacter => "Invalid control character at"
  | .byteOrderMark => "Unexpected UTF-8 BOM (decode using utf-8-sig)"
  | .longInteger digits =>
    s!"Exceeds the limit ({Text.digitLimit} digits) for integer string conversion: value has " ++
      s!"{digits} digits; use sys.set_int_max_str_digits() to increase the limit"

/-- A defect with the number of characters from its place to the end of the text. -/
structure Stuck where
  defect : Defect
  remaining : Nat

/-- What is left of a text after a step that consumed some of it. -/
abbrev After (cs : List Char) := { rest : List Char // rest.length < cs.length }

abbrev Reading (α : Type) (cs : List Char) := Except Stuck (α × After cs)

def isBlank (c : Char) : Bool := c == ' ' || c == '\t' || c == '\n' || c == '\r'

def skipBlanks : List Char → List Char
  | [] => []
  | c :: rest => if isBlank c then skipBlanks rest else c :: rest

theorem length_skipBlanks_le (cs : List Char) : (skipBlanks cs).length ≤ cs.length := by
  induction cs with
  | nil => simp [skipBlanks]
  | cons c rest ih => simp only [skipBlanks]; split <;> simp; omega

def hexDigit? (c : Char) : Option Nat :=
  if '0' ≤ c ∧ c ≤ '9' then some (c.toNat - 48)
  else if 'a' ≤ c ∧ c ≤ 'f' then some (c.toNat - 87)
  else if 'A' ≤ c ∧ c ≤ 'F' then some (c.toNat - 55)
  else none

/-- The number that hexadecimal digits stand for. -/
def hexNumber? (digits : List Char) : Option Nat :=
  digits.foldl (fun acc c => do return (← acc) * 16 + (← hexDigit? c)) (some 0)

def simpleEscape? : Char → Option Char
  | '"' => some '"'
  | '\\' => some '\\'
  | '/' => some '/'
  | 'b' => some '\x08'
  | 'f' => some '\x0c'
  | 'n' => some '\n'
  | 'r' => some '\r'
  | 't' => some '\t'
  | _ => none

def isHighSurrogate (n : Nat) : Bool := 0xd800 ≤ n && n ≤ 0xdbff

def isLowSurrogate (n : Nat) : Bool := 0xdc00 ≤ n && n ≤ 0xdfff

/-- The rest of a string after its opening quote; `acc` holds what is read, in reverse, and
`opening` the number of characters from the quote to the end of the text. A surrogate pair of
escapes is one character. -/
def readString (opening : Nat) (acc : List Char) :
    (cs : List Char) → Except Stuck (String × After cs)
  | [] => .error ⟨.openString, opening⟩
  | '"' :: rest => .ok (String.ofList acc.reverse, ⟨rest, by simp⟩)
  | '\\' :: [] => .error ⟨.openString, opening⟩
  | '\\' :: 'u' :: a :: b :: c :: d :: e :: rest =>
    match hexNumber? [a, b, c, d] with
    | none => .error ⟨.brokenCodeEscape, rest.length + 6⟩
    | some n =>
      match e, rest with
      | '\\', 'u' :: f :: g :: h :: i :: j :: rest' =>
        if isHighSurrogate n then
          match hexNumber? [f, g, h, i] with
          | none => .error ⟨.brokenCodeEscape, rest'.length + 6⟩
          | some m =>
            if isLowSurrogate m then
              (readString opening
                (Char.ofNat (0x10000 + (n - 0xd800) * 0x400 + (m - 0xdc00)) :: acc) (j :: rest')).map
                fun (s, r) => (s, ⟨r.1, by have := r.2; simp at this ⊢; omega⟩)
            else
              (readString opening (Char.ofNat n :: acc)
                ('\\' :: 'u' :: f :: g :: h :: i :: j :: rest')).map
                fun (s, r) => (s, ⟨r.1, by have := r.2; simp at this ⊢; omega⟩)
        else
          (readString opening (Char.ofNat n :: acc)
            ('\\' :: 'u' :: f :: g :: h :: i :: j :: rest')).map
            fun (s, r) => (s, ⟨r.1, by have := r.2; simp at this ⊢; omega⟩)
      | e, rest =>
        (readString opening (Char.ofNat n :: acc) (e :: rest)).map
          fun (s, r) => (s, ⟨r.1, by have := r.2; simp at this ⊢; omega⟩)
  | '\\' :: c :: rest =>
    if c = 'u' then .error ⟨.brokenCodeEscape, rest.length + 1⟩
    else match simpleEscape? c with
      | none => .error ⟨.unknownEscape, rest.length + 2⟩
      | some x =>
        (readString opening (x :: acc) rest).map
          fun (s, r) => (s, ⟨r.1, by have := r.2; simp at this ⊢; omega⟩)
  | c :: rest =>
    if c.toNat ≤ 0x1f then .error ⟨.controlCharacter, rest.length + 1⟩
    else (readString opening (c :: acc) rest).map
      fun (s, r) => (s, ⟨r.1, by have := r.2; simp at this ⊢; omega⟩)
termination_by cs => cs.length

def isDigit (c : Char) : Bool := '0' ≤ c && c ≤ '9'

/-- A natural from its decimal digits. -/
def natOfDigits (digits : List Char) : Nat :=
  digits.foldl (fun acc c => acc * 10 + (c.toNat - 48)) 0

/-- The leading digits of a text and what follows them. -/
def spanDigits (cs : List Char) : List Char × List Char := (cs.takeWhile isDigit, cs.dropWhile isDigit)

/-- The digits before the point: a zero alone, or digits that do not start with one. -/
def wholeDigits : List Char → List Char × List Char
  | '0' :: rest => (['0'], rest)
  | cs => spanDigits cs

/-- The digits of a fraction with what follows, if a point with a digit after it comes next. -/
def fraction? : List Char → Option (List Char × List Char)
  | '.' :: rest =>
    let (digits, rest') := spanDigits rest
    if digits.isEmpty then none else some (digits, rest')
  | _ => none

/-- The exponent with what follows, if a mark with at least one digit comes next. -/
def exponent? : List Char → Option (Int × List Char)
  | c :: rest =>
    if c = 'e' ∨ c = 'E' then
      let (negative, rest) := match rest with
        | '-' :: rest => (true, rest)
        | '+' :: rest => (false, rest)
        | rest => (false, rest)
      let (digits, rest') := spanDigits rest
      if digits.isEmpty then none
      else
        let n : Int := natOfDigits digits
        some (if negative then -n else n, rest')
    else none
  | [] => none

/-- An unsigned number: an integer unless a fraction or an exponent follows. -/
def unsigned? (negative : Bool) (cs : List Char) : Option (Json × List Char) :=
  let (whole, rest) := wholeDigits cs
  if whole.isEmpty then none
  else
    let (fractionDigits, rest) := (fraction? rest).getD ([], rest)
    let (exponent, rest') := (exponent? rest).map (fun p => (some p.1, p.2)) |>.getD (none, rest)
    if fractionDigits.isEmpty && exponent.isNone then
      let n : Int := natOfDigits whole
      some (.int (if negative then -n else n), rest')
    else
      some (.float (Binary64.ofDecimal negative (natOfDigits (whole ++ fractionDigits))
        (exponent.getD 0 - fractionDigits.length)), rest')

/-- The value that a word or number at the start of a text stands for. -/
def scalar? : List Char → Option (Json × List Char)
  | 'n' :: 'u' :: 'l' :: 'l' :: rest => some (.null, rest)
  | 't' :: 'r' :: 'u' :: 'e' :: rest => some (.bool true, rest)
  | 'f' :: 'a' :: 'l' :: 's' :: 'e' :: rest => some (.bool false, rest)
  | 'N' :: 'a' :: 'N' :: rest => some (.float Binary64.nan, rest)
  | 'I' :: 'n' :: 'f' :: 'i' :: 'n' :: 'i' :: 't' :: 'y' :: rest =>
    some (.float (Binary64.infinity false), rest)
  | '-' :: 'I' :: 'n' :: 'f' :: 'i' :: 'n' :: 'i' :: 't' :: 'y' :: rest =>
    some (.float (Binary64.infinity true), rest)
  | '-' :: rest => unsigned? true rest
  | cs => unsigned? false cs

/-- The number of digits of an integer at the start of a text. -/
def digitCount : List Char → Nat
  | '-' :: rest => (rest.takeWhile isDigit).length
  | cs => (cs.takeWhile isDigit).length

/-- Whether a value read from the start of a text is an integer of too many digits. -/
def isLongInteger (cs : List Char) : Json → Bool
  | .int _ => Text.digitLimit < digitCount cs
  | _ => false

mutual
/-- A value at the start of a text that has no blank in front. -/
def readValue (cs : List Char) : Reading Json cs :=
  match cs with
  | '"' :: rest =>
    (readString (rest.length + 1) [] rest).map
      fun (s, r) => (.str s, ⟨r.1, Nat.lt_succ_of_lt r.2⟩)
  | '[' :: rest =>
    have hr := length_skipBlanks_le rest
    match hs : skipBlanks rest with
    | ']' :: rest' => .ok (.arr [], ⟨rest', by simp [hs] at hr ⊢; omega⟩)
    | next =>
      have : next.length < rest.length + 1 := by simp [hs] at hr; omega
      match readItems next with
      | .error e => .error e
      | .ok (items, r) => .ok (.arr items, ⟨r.1, by have := r.2; simp; omega⟩)
  | '\x7b' :: rest =>
    have hr := length_skipBlanks_le rest
    match hs : skipBlanks rest with
    | '\x7d' :: rest' => .ok (.obj [], ⟨rest', by simp [hs] at hr ⊢; omega⟩)
    | next =>
      have : next.length < rest.length + 1 := by simp [hs] at hr; omega
      match readMembers next with
      | .error e => .error e
      | .ok (fields, r) =>
        .ok (.obj (Entries.merge [] fields), ⟨r.1, by have := r.2; simp; omega⟩)
  | cs =>
    match scalar? cs with
    | some (v, rest) =>
      if isLongInteger cs v then .error ⟨.longInteger (digitCount cs), cs.length⟩
      else if h : rest.length < cs.length then .ok (v, ⟨rest, h⟩)
      else .error ⟨.valueExpected, cs.length⟩
    | none => .error ⟨.valueExpected, cs.length⟩
termination_by (cs.length, 0)

/-- The items of a list from its first one to its closing bracket. -/
def readItems (cs : List Char) : Reading (List Json) cs :=
  match readValue cs with
  | .error e => .error e
  | .ok (v, r) =>
    have hr := r.2
    have hs := length_skipBlanks_le r.1
    match h : skipBlanks r.1 with
    | ']' :: rest => .ok ([v], ⟨rest, by simp [h] at hs; omega⟩)
    | ',' :: rest =>
      have hb := length_skipBlanks_le rest
      have : (skipBlanks rest).length < cs.length := by simp [h] at hs; omega
      match readItems (skipBlanks rest) with
      | .error e => .error e
      | .ok (vs, r') => .ok (v :: vs, ⟨r'.1, by have := r'.2; omega⟩)
    | rest => .error ⟨.commaExpected, rest.length⟩
termination_by (cs.length, 1)

/-- The members of an object from its first name to its closing brace. -/
def readMembers (cs : List Char) : Reading (List (String × Json)) cs :=
  match hcs : cs with
  | '"' :: afterQuote =>
    match readString (afterQuote.length + 1) [] afterQuote with
    | .error e => .error e
    | .ok (name, r) =>
      have hr := r.2
      have hs := length_skipBlanks_le r.1
      match h : skipBlanks r.1 with
      | ':' :: afterColon =>
        have hc := length_skipBlanks_le afterColon
        have : (skipBlanks afterColon).length < afterQuote.length + 1 := by simp [h] at hs; omega
        match readValue (skipBlanks afterColon) with
        | .error e => .error e
        | .ok (v, r') =>
          have hr' := r'.2
          have hs' := length_skipBlanks_le r'.1
          match h' : skipBlanks r'.1 with
          | '\x7d' :: rest => .ok ([(name, v)], ⟨rest, by simp [h, h'] at hs hs' ⊢; omega⟩)
          | ',' :: rest =>
            have hb := length_skipBlanks_le rest
            have : (skipBlanks rest).length < afterQuote.length + 1 := by
              simp [h'] at hs'; omega
            match readMembers (skipBlanks rest) with
            | .error e => .error e
            | .ok (fields, r'') =>
              .ok ((name, v) :: fields, ⟨r''.1, by have := r''.2; simp; omega⟩)
          | rest => .error ⟨.commaExpected, rest.length⟩
      | rest => .error ⟨.colonExpected, rest.length⟩
  | rest => .error ⟨.nameExpected, rest.length⟩
termination_by (cs.length, 0)
end

/-- Why and where a text is no value. Lines and columns count from one, the offset from zero. -/
structure ReadError where
  defect : Defect
  line : Nat
  column : Nat
  offset : Nat

/-- The place in a text that has a number of characters left after it. -/
def ReadError.locate (cs : List Char) (stuck : Stuck) : ReadError :=
  let offset := cs.length - stuck.remaining
  let before := cs.take offset
  { defect := stuck.defect
    line := before.count '\n' + 1
    column := (before.reverse.takeWhile (· != '\n')).length + 1
    offset }

/-- Whether the text is sound and only a number in it is longer than numbers may be. -/
def ReadError.isLongInteger (e : ReadError) : Bool :=
  match e.defect with
  | .longInteger _ => true
  | _ => false

def ReadError.message (e : ReadError) : String :=
  if e.isLongInteger then e.defect.message
  else s!"{e.defect.message}: line {e.line} column {e.column} (char {e.offset})"

/-- The value that a whole text stands for. -/
def parseChars (cs : List Char) : Except Stuck Json := do
  let (v, r) ← readValue (skipBlanks cs)
  let rest := skipBlanks r.1
  if rest.isEmpty then return v else throw ⟨.extraData, rest.length⟩

/-- The value that a decoded text is of. -/
def parseDecoded (text : String) : Except ReadError Json :=
  let cs := text.toList
  (parseChars cs).mapError (ReadError.locate cs)

/-- The value that a text is of; a text does not start with a byte order mark. -/
def parse (text : String) : Except ReadError Json :=
  let cs := text.toList
  if cs.head? = some '\ufeff' then .error (ReadError.locate cs ⟨.byteOrderMark, cs.length⟩)
  else parseDecoded text

end GraphWorkbench.Json

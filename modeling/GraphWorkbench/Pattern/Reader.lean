import GraphWorkbench.Pattern.Matcher
import GraphWorkbench.Json.Literal
import GraphWorkbench.Text.Integer
/-!
Reading a pattern. The text is first cut into tokens, a backslash going with the character after it;
every problem is told with the place in the text that it concerns.
-/
namespace GraphWorkbench.Pattern

/-- What is wrong with a pattern. -/
inductive Problem where
  | badEscapeAtEnd
  | badEscape (text : String)
  | incompleteEscape (text : String)
  | missingBrace
  | missingName (what : String)
  | unterminatedName (terminator : Char)
  | undefinedCharacter (name : String)
  | octalOutOfRange (text : String)
  | openGroupReference
  | lookBehindReference
  | invalidReference (index : Nat)
  | unterminatedSet
  | badRange (low high : String)
  | repeatOrder
  | nothingToRepeat
  | multipleRepeat
  | unexpectedEnd
  | badGroupName (name : String)
  | unknownGroupName (name : String)
  | unknownExtension (text : String)
  | unterminatedComment
  | unterminatedGroup
  | badGroupNumber
  | manyConditionalBranches
  | lateGlobalFlags
  | redefinedGroup (name : String) (index former : Nat)
  | unbalancedParenthesis
  | bytewiseFlag
  | incompatibleFlags
  | missingFlagEnd
  | unknownFlag
  | missingFlag
  | missingColon
  | globalFlagOn
  | globalFlagOff
  | alphabetFlagOff
  | flagOnAndOff
  | lookBehindWidth
  | lookBehindFar
  | templateRepeat (kind : String)
deriving DecidableEq

def nameLiteral (name : String) : String := (Json.str name).literal

def Problem.message : Problem → String
  | .badEscapeAtEnd => "bad escape (end of pattern)"
  | .badEscape t => s!"bad escape {t}"
  | .incompleteEscape t => s!"incomplete escape {t}"
  | .missingBrace => "missing \x7b"
  | .missingName what => s!"missing {what}"
  | .unterminatedName c => s!"missing {c}, unterminated name"
  | .undefinedCharacter name => s!"undefined character name {nameLiteral name}"
  | .octalOutOfRange t => s!"octal escape value {t} outside of range 0-0o377"
  | .openGroupReference => "cannot refer to an open group"
  | .lookBehindReference => "cannot refer to group defined in the same lookbehind subpattern"
  | .invalidReference n => s!"invalid group reference {n}"
  | .unterminatedSet => "unterminated character set"
  | .badRange low high => s!"bad character range {low}-{high}"
  | .repeatOrder => "min repeat greater than max repeat"
  | .nothingToRepeat => "nothing to repeat"
  | .multipleRepeat => "multiple repeat"
  | .unexpectedEnd => "unexpected end of pattern"
  | .badGroupName name => s!"bad character in group name {nameLiteral name}"
  | .unknownGroupName name => s!"unknown group name {nameLiteral name}"
  | .unknownExtension t => s!"unknown extension {t}"
  | .unterminatedComment => "missing ), unterminated comment"
  | .unterminatedGroup => "missing ), unterminated subpattern"
  | .badGroupNumber => "bad group number"
  | .manyConditionalBranches => "conditional backref with more than two branches"
  | .lateGlobalFlags => "global flags not at the start of the expression"
  | .redefinedGroup name index former =>
    s!"redefinition of group name {nameLiteral name} as group {index}; was group {former}"
  | .unbalancedParenthesis => "unbalanced parenthesis"
  | .bytewiseFlag => "bad inline flags: cannot use 'L' flag with a str pattern"
  | .incompatibleFlags => "bad inline flags: flags 'a', 'u' and 'L' are incompatible"
  | .missingFlagEnd => "missing -, : or )"
  | .unknownFlag => "unknown flag"
  | .missingFlag => "missing flag"
  | .missingColon => "missing :"
  | .globalFlagOn => "bad inline flags: cannot turn on global flag"
  | .globalFlagOff => "bad inline flags: cannot turn off global flag"
  | .alphabetFlagOff => "bad inline flags: cannot turn off flags 'a', 'u' and 'L'"
  | .flagOnAndOff => "bad inline flags: flag turned on and off"
  | .lookBehindWidth => "look-behind requires fixed-width pattern"
  | .lookBehindFar => "looks too much behind"
  | .templateRepeat kind => s!"internal: unsupported template operator {kind}"

/-- Why a text is no usable pattern. -/
inductive Refusal where
  /-- The text breaks a rule of patterns, at a place unless the problem concerns the whole. -/
  | invalid (problem : Problem) (position : Option Nat)
  /-- A count of repetitions is beyond all bounds. -/
  | tooManyRepeats
  /-- Two flags that exclude each other were set for the whole pattern. -/
  | flagConflict
deriving DecidableEq

/-- A character, or a backslash with the character after it. -/
inductive Token where
  | char (c : Char)
  | escape (c : Char)
deriving DecidableEq

def Token.text : Token → String
  | .char c => c.toString
  | .escape c => String.ofList ['\\', c]

def Token.width : Token → Nat
  | .char _ => 1
  | .escape _ => 2

/-- The tokens of a text, and whether a backslash stands alone at its end. -/
def tokens : List Char → List Token × Bool
  | [] => ([], false)
  | ['\\'] => ([], true)
  | '\\' :: c :: rest => let r := tokens rest; (.escape c :: r.1, r.2)
  | c :: rest => let r := tokens rest; (.char c :: r.1, r.2)

/-- How far reading has come, and what it has learned. -/
structure Progress where
  rest : List Token
  position : Nat
  dangling : Bool
  flags : Flags
  /-- The widths of the groups from the first on; none while a group is open. -/
  groups : List (Option Width)
  names : List (String × Nat)
  /-- The number of groups, plus one, when the outermost look-behind began. -/
  lookBehindFrom : Option Nat
  /-- Where each group number was first named by a condition. -/
  conditions : List (Nat × Nat)

abbrev Reading := StateT Progress (Except Refusal)

namespace Reading

def fail {α : Type} (problem : Problem) (offset : Nat) : Reading α := do
  throw (.invalid problem (some ((← get).position - offset)))

/-- A backslash that ends the text is an error as soon as it comes next. -/
def checkDangling : Reading Unit := do
  let s ← get
  if s.rest.isEmpty && s.dangling then
    throw (.invalid .badEscapeAtEnd (some s.position))

def peek : Reading (Option Token) := do return (← get).rest.head?

/-- Takes the next token. -/
def next : Reading (Option Token) := do
  let s ← get
  match s.rest with
  | [] => return none
  | t :: rest =>
    set { s with rest, position := s.position + t.width }
    checkDangling
    return some t

/-- Takes the next token if it is a given character. -/
def accept (c : Char) : Reading Bool := do
  if (← peek) = some (.char c) then
    let _ ← next
    return true
  else return false

/-- Takes up to `n` tokens that are characters of a class. -/
def takeUpTo (test : Char → Bool) : Nat → Reading (List Char)
  | 0 => return []
  | n + 1 => do
    match ← peek with
    | some (.char c) =>
      if test c then
        let _ ← next
        return c :: (← takeUpTo test n)
      else return []
    | _ => return []

/-- Takes tokens up to a terminating character, which is taken too. `acc` is the text so far. -/
def takeName (terminator : Char) (what : String) (acc : String) : Nat → Reading String
  | 0 => fail (.missingName what) 0
  | fuel + 1 => do
    match ← next with
    | none =>
      if acc.isEmpty then fail (.missingName what) 0
      else fail (.unterminatedName terminator) acc.length
    | some t =>
      if t = .char terminator then
        if acc.isEmpty then fail (.missingName what) 1 else return acc
      else takeName terminator what (acc ++ t.text) fuel

def nameUntil (terminator : Char) (what : String) : Reading String := do
  takeName terminator what "" ((← get).rest.length + 1)

end Reading

open Reading

def isOctalDigit (c : Char) : Bool := '0' ≤ c && c ≤ '7'

def isHexDigit (c : Char) : Bool :=
  c.isDigit || ('a' ≤ c && c ≤ 'f') || ('A' ≤ c && c ≤ 'F')

def digitOf (c : Char) : Nat :=
  if c.isDigit then c.toNat - 48 else if 'a' ≤ c then c.toNat - 87 else c.toNat - 55

def numberIn (base : Nat) (digits : List Char) : Nat :=
  digits.foldl (fun acc c => acc * base + digitOf c) 0

/-- A letter first, then letters, digits and underscores. -/
def isIdentifier (name : String) : Bool :=
  match name.toList with
  | [] => false
  | c :: rest => Text.isWord c && !Text.isDigit c && rest.all Text.isWord

/-- The control characters that letters after a backslash stand for. -/
def controlEscape? : Char → Option Nat
  | 'a' => some 7
  | 'f' => some 12
  | 'n' => some 10
  | 'r' => some 13
  | 't' => some 9
  | 'v' => some 11
  | '\\' => some 92
  | _ => none

def classEscape? : Char → Option SetItem
  | 'd' => some (.ofClass false .digit)
  | 'D' => some (.ofClass true .digit)
  | 's' => some (.ofClass false .space)
  | 'S' => some (.ofClass true .space)
  | 'w' => some (.ofClass false .word)
  | 'W' => some (.ofClass true .word)
  | _ => none

def anchorEscape? : Char → Option Anchor
  | 'A' => some .textStart
  | 'Z' => some .textEnd
  | 'b' => some .boundary
  | 'B' => some .notBoundary
  | _ => none

/-- A code written by a fixed number of hexadecimal digits after a letter. -/
def readHexEscape (letter : Char) (width : Nat) : Reading Nat := do
  let digits ← takeUpTo isHexDigit width
  let text := String.ofList ('\\' :: letter :: digits)
  if digits.length ≠ width then fail (.incompleteEscape text) text.length
  else
    let n := numberIn 16 digits
    if 0x110000 ≤ n then fail (.badEscape text) text.length else return n

/-- A character written by its name; no names are known. -/
def readNamedEscape : Reading Nat := do
  if !(← accept '\x7b') then fail .missingBrace 0
  else
    let name ← nameUntil '\x7d' "character name"
    fail (.undefinedCharacter name) (name.length + 4)

/-- The escapes by code that mean the same inside and outside of a set. -/
def readCodeEscape? (c : Char) : Reading (Option Nat) := do
  match c with
  | 'x' => return some (← readHexEscape 'x' 2)
  | 'u' => return some (← readHexEscape 'u' 4)
  | 'U' => return some (← readHexEscape 'U' 8)
  | 'N' => return some (← readNamedEscape)
  | _ => return none

/-- A backslash before any other character: letters mean nothing, all else stands for itself. -/
def readPlainEscape (c : Char) : Reading Nat := do
  if c.isAlpha then fail (.badEscape (Token.escape c).text) 2 else return c.toNat

/-- An escape inside a set. -/
def readSetEscape (c : Char) : Reading SetItem := do
  if c = 'b' then return .code 8
  else if let some n := controlEscape? c then return .code n
  else if let some item := classEscape? c then return item
  else if let some n ← readCodeEscape? c then return .code n
  else if isOctalDigit c then
    let digits := c :: (← takeUpTo isOctalDigit 2)
    let n := numberIn 8 digits
    let text := String.ofList ('\\' :: digits)
    if 0o377 < n then fail (.octalOutOfRange text) text.length else return .code n
  else if c.isDigit then fail (.badEscape (Token.escape c).text) 2
  else return .code (← readPlainEscape c)

/-- The number of groups opened so far, plus one for the whole. -/
def groupCount : Reading Nat := do return (← get).groups.length + 1

def isClosed (index : Nat) : Reading Bool := do
  return (((← get).groups[index - 1]?).join).isSome && 0 < index

/-- Inside a look-behind, only groups that were closed before it can be referred to. -/
def checkLookBehind (index : Nat) : Reading Unit := do
  match (← get).lookBehindFrom with
  | none => return
  | some first =>
    if !(← isClosed index) then fail .openGroupReference 0
    else if first ≤ index then fail .lookBehindReference 0

/-- A backslash and a digit other than zero: three octal digits are a code, all else is the number
of a group. -/
def readNumberEscape (c : Char) : Reading Node := do
  let second ← takeUpTo Char.isDigit 1
  let third ←
    if isOctalDigit c && !second.isEmpty && second.all isOctalDigit then takeUpTo isOctalDigit 1
    else pure []
  let digits := c :: (second ++ third)
  let text := String.ofList ('\\' :: digits)
  if third.length = 1 then
    let n := numberIn 8 digits
    if 0o377 < n then fail (.octalOutOfRange text) text.length else return .literal n
  else
    let index := numberIn 10 digits
    if (← groupCount) ≤ index then fail (.invalidReference index) (text.length - 1)
    else if !(← isClosed index) then fail .openGroupReference text.length
    else
      checkLookBehind index
      return .reference index

/-- An escape outside of a set. -/
def readEscape (c : Char) : Reading Node := do
  if let some item := classEscape? c then return .set false [item]
  else if let some a := anchorEscape? c then return .anchor a
  else if let some n := controlEscape? c then return .literal n
  else if let some n ← readCodeEscape? c then return .literal n
  else if c = '0' then
    return .literal (numberIn 8 (← takeUpTo isOctalDigit 2))
  else if c.isDigit then readNumberEscape c
  else return .literal (← readPlainEscape c)

/-- One end of a range, or a single item, of a set. -/
def readSetToken : Token → Reading SetItem
  | .char c => return .code c.toNat
  | .escape c => readSetEscape c

/-- The items of a set up to its closing bracket; `start` is where the set began. -/
def readSetItems (start : Nat) : Nat → List SetItem → Reading (List SetItem)
  | 0, acc => return acc.reverse
  | fuel + 1, acc => do
    match ← next with
    | none => fail .unterminatedSet ((← get).position - start)
    | some this =>
      if this = .char ']' && !acc.isEmpty then return acc.reverse
      else
        let low ← readSetToken this
        if ← accept '-' then
          match ← next with
          | none => fail .unterminatedSet ((← get).position - start)
          | some that =>
            if that = .char ']' then return (.code 45 :: low :: acc).reverse
            else
              let high ← readSetToken that
              let wrong : Reading (List SetItem) :=
                fail (.badRange this.text that.text) (this.width + 1 + that.width)
              match low, high with
              | .code a, .code b =>
                if b < a then wrong else readSetItems start fuel (.range a b :: acc)
              | _, _ => wrong
        else readSetItems start fuel (low :: acc)

def readSet : Reading Node := do
  let start := (← get).position - 1
  let negated ← accept '^'
  let items ← readSetItems start ((← get).rest.length + 1) []
  return .set negated items

/-- The bounds of a repetition, after its opening brace: none when the brace stands for itself. -/
def readBounds : Reading (Option (Nat × Option Nat)) := do
  let before ← get
  if before.rest.head? = some (.char '\x7d') then return none
  else
    let fuel := before.rest.length
    let low ← takeUpTo Char.isDigit fuel
    let comma ← accept ','
    let high ← if comma then takeUpTo Char.isDigit fuel else pure low
    if !(← accept '\x7d') then
      modify fun s => { s with rest := before.rest, position := before.position }
      return none
    else
      let least := numberIn 10 low
      let most := if high.isEmpty then none else some (numberIn 10 high)
      if repeatLimit ≤ least then throw .tooManyRepeats
      else match most with
        | none => return some (least, none)
        | some m =>
          if repeatLimit ≤ m then throw .tooManyRepeats
          else if m < least then fail .repeatOrder ((← get).position - before.position)
          else return some (least, some m)

/-- A mark after the bounds of a repetition. -/
def readAppetite : Reading Appetite := do
  if ← accept '?' then return .lazy
  if ← accept '+' then return .possessive
  return .greedy

/-- Makes the last part of a sequence a repetition. `start` is where the bounds began, after a first
character that counts as `width` wide. -/
def repeatLast (start width : Nat) (bounds : Nat × Option Nat) (acc : List Node) :
    Reading (List Node) := do
  let offset := (← get).position - start + width
  match acc with
  | [] => fail .nothingToRepeat offset
  | .anchor _ :: _ => fail .nothingToRepeat offset
  | .repeated _ _ _ _ :: _ => fail .multipleRepeat offset
  | item :: before =>
    let body := match item with
      | .group none [] [] body => body
      | item => [item]
    let appetite ← readAppetite
    return .repeated bounds.1 bounds.2 appetite body :: before

def isLetter (t : Token) : Bool :=
  match t with
  | .char c => c.isAlpha || (0x80 ≤ c.toNat && Text.isWord c && !Text.isDigit c)
  | .escape _ => false

def flagOf? : Token → Option Flag
  | .char c => Flag.ofChar? c
  | .escape _ => none

/-- The flags that a group turns on, with the token after them. -/
def readAddedFlags : Nat → Flags → Token → Reading (Flags × Token)
  | 0, acc, t => return (acc, t)
  | fuel + 1, acc, t => do
    match flagOf? t with
    | none => return (acc, t)
    | some f =>
      if f = .bytewise then fail .bytewiseFlag 0
      else
        let acc := if acc.contains f then acc else acc ++ [f]
        if f.isAlphabet && acc.any (fun g => g.isAlphabet && g != f) then fail .incompatibleFlags 0
        else match ← next with
          | none => fail .missingFlagEnd 0
          | some t' =>
            if t' = .char ')' || t' = .char '-' || t' = .char ':' then return (acc, t')
            else if (flagOf? t').isNone then
              fail (if isLetter t' then .unknownFlag else .missingFlagEnd) t'.width
            else readAddedFlags fuel acc t'

/-- The flags that a group turns off, up to the colon. -/
def readDroppedFlags : Nat → Flags → Token → Reading Flags
  | 0, acc, _ => return acc
  | fuel + 1, acc, t => do
    match flagOf? t with
    | none => return acc
    | some f =>
      if f.isAlphabet then fail .alphabetFlagOff 0
      else
        let acc := if acc.contains f then acc else acc ++ [f]
        match ← next with
        | none => fail .missingColon 0
        | some t' =>
          if t' = .char ':' then return acc
          else if (flagOf? t').isNone then
            fail (if isLetter t' then .unknownFlag else .missingColon) t'.width
          else readDroppedFlags fuel acc t'

/-- The flags at the start of a group, from their first token on: none when they are for the whole
pattern, which then has them. -/
def readFlags (first : Token) : Reading (Option (Flags × Flags)) := do
  let fuel := (← get).rest.length + 1
  let (added, t) ← readAddedFlags fuel [] first
  if t = .char ')' then
    modify fun s => { s with flags := s.flags ++ added }
    return none
  else if added.contains .template then fail .globalFlagOn 1
  else
    let dropped ←
      if t = .char '-' then
        match ← next with
        | none => fail .missingFlag 0
        | some t' =>
          if (flagOf? t').isNone then
            fail (if isLetter t' then .unknownFlag else .missingFlag) t'.width
          else readDroppedFlags fuel [] t'
      else pure []
    if dropped.contains .template then fail .globalFlagOff 1
    else if added.any dropped.contains then fail .flagOnAndOff 1
    else return some (added, dropped)

/-- Opens a group, with a name if it has one, and gives its number. -/
def openGroup (name : Option String) : Reading Nat := do
  let index ← groupCount
  match name with
  | none => pure ()
  | some n =>
    if let some (_, former) := (← get).names.find? (·.1 == n) then
      fail (.redefinedGroup n index former) (n.length + 1)
    else modify fun s => { s with names := s.names ++ [(n, index)] }
  modify fun s => { s with groups := s.groups ++ [none] }
  return index

def closeGroup (index : Nat) (body : List Node) : Reading Unit :=
  modify fun s => { s with groups := s.groups.set (index - 1) (some (widthAll s.groups body)) }

/-- Skips a comment in a group; `start` is where the group began. -/
def skipComment (start : Nat) : Nat → Reading Unit
  | 0 => return
  | fuel + 1 => do
    match ← peek with
    | none => fail .unterminatedComment ((← get).position - start)
    | some _ => if (← next) = some (.char ')') then return else skipComment start fuel

/-- Skips the rest of a line. -/
def skipLine : Nat → Reading Unit
  | 0 => return
  | fuel + 1 => do
    match ← next with
    | none => return
    | some t => if t = .char '\n' then return else skipLine fuel

/-- The closing parenthesis of a group that began at `start`. -/
def expectClose (start : Nat) : Reading Unit := do
  if !(← accept ')') then fail .unterminatedGroup ((← get).position - start)

/-- A reference to a group by name. -/
def readNamedReference : Reading Node := do
  let name ← nameUntil ')' "group name"
  if !isIdentifier name then fail (.badGroupName name) (name.length + 1)
  else match (← get).names.find? (·.1 == name) with
    | none => fail (.unknownGroupName name) (name.length + 1)
    | some (_, index) =>
      if !(← isClosed index) then fail .openGroupReference (name.length + 1)
      else
        checkLookBehind index
        return .reference index

/-- The number of the group that a condition names, by name or by number. -/
def readCondition : Reading Nat := do
  let name ← nameUntil ')' "group name"
  let offset := name.length + 1
  let index ←
    if isIdentifier name then
      match (← get).names.find? (·.1 == name) with
      | none => fail (.unknownGroupName name) offset
      | some (_, index) => pure index
    else match Text.integer? name.toList with
      | some (.ofNat n) =>
        if n = 0 then fail .badGroupNumber offset
        else if 1073741823 ≤ n then fail (.invalidReference n) offset
        else
          let position := (← get).position - offset
          modify fun s =>
            if s.conditions.any (·.1 == n) then s
            else { s with conditions := s.conditions ++ [(n, position)] }
          pure n
      | _ => fail (.badGroupName name) offset
  checkLookBehind index
  return index

/-- What an opening parenthesis begins. -/
inductive Opening where
  /-- A complete part, or nothing at all. -/
  | done (part : Option Node)
  /-- Flags for the whole pattern. -/
  | globalFlags
  | look (behind negated : Bool)
  | condition (index : Nat)
  | body (name : Option String) (capture atomic : Bool) (added dropped : Flags)

/-- Reads what follows an opening parenthesis, up to the body of the group. -/
def readOpening (start : Nat) : Reading Opening := do
  if !(← accept '?') then return .body none true false [] []
  else match ← next with
    | none => fail .unexpectedEnd 0
    | some t =>
      match t with
      | .char 'P' =>
        if ← accept '<' then
          let name ← nameUntil '>' "group name"
          if !isIdentifier name then fail (.badGroupName name) (name.length + 1)
          else return .body (some name) true false [] []
        else if ← accept '=' then return .done (some (← readNamedReference))
        else match ← next with
          | none => fail .unexpectedEnd 0
          | some t => fail (.unknownExtension ("?P" ++ t.text)) (t.width + 2)
      | .char ':' => return .body none false false [] []
      | .char '#' =>
        skipComment start ((← get).rest.length + 1)
        return .done none
      | .char '=' => return .look false false
      | .char '!' => return .look false true
      | .char '<' =>
        match ← next with
        | none => fail .unexpectedEnd 0
        | some (.char '=') => return .look true false
        | some (.char '!') => return .look true true
        | some t => fail (.unknownExtension ("?<" ++ t.text)) (t.width + 2)
      | .char '(' => return .condition (← readCondition)
      | .char '>' => return .body none false true [] []
      | t =>
        if (flagOf? t).isSome || t = .char '-' then
          match ← readFlags t with
          | none => return .globalFlags
          | some (added, dropped) => return .body none false false added dropped
        else fail (.unknownExtension ("?" ++ t.text)) (t.width + 1)

def isSpacing (t : Token) : Bool :=
  match t with
  | .char c => c == ' ' || (9 ≤ c.toNat && c.toNat ≤ 13)
  | .escape _ => false

mutual
/-- Alternatives up to the end of a group or of the text. At the top of a pattern flags may be set
for the whole, and later alternatives are read under them. -/
def readChoices : Nat → Bool → Bool → List (List Node) → Reading (List Node)
  | 0, _, _, acc => return [.branch acc.reverse]
  | fuel + 1, spaced, top, acc => do
    let nodes ← readSequence fuel spaced (top && acc.isEmpty) []
    let acc := nodes :: acc
    if ← accept '|' then
      let flags := (← get).flags
      readChoices fuel (if top then flags.contains .spaced else spaced) top acc
    else
      match acc with
      | [only] => return only
      | _ => return [.branch acc.reverse]

/-- Parts one after another; `acc` holds those read so far, the newest first. -/
def readSequence : Nat → Bool → Bool → List Node → Reading (List Node)
  | 0, _, _, acc => return acc.reverse
  | fuel + 1, spaced, first, acc => do
    match ← peek with
    | none => return acc.reverse
    | some (.char '|') => return acc.reverse
    | some (.char ')') => return acc.reverse
    | some this =>
      let _ ← next
      if spaced && isSpacing this then readSequence fuel spaced first acc
      else if spaced && this = .char '#' then
        skipLine ((← get).rest.length + 1)
        readSequence fuel spaced first acc
      else
        let start := (← get).position
        let again (nodes : List Node) : Reading (List Node) := readSequence fuel spaced first nodes
        match this with
        | .escape c => again ((← readEscape c) :: acc)
        | .char '[' => again ((← readSet) :: acc)
        | .char '.' => again (.anyChar :: acc)
        | .char '^' => again (.anchor .lineStart :: acc)
        | .char '$' => again (.anchor .lineEnd :: acc)
        | .char '?' => again (← repeatLast start 1 (0, some 1) acc)
        | .char '*' => again (← repeatLast start 1 (0, none) acc)
        | .char '+' => again (← repeatLast start 1 (1, none) acc)
        | .char '\x7b' =>
          match ← readBounds with
          | none => again (.literal 0x7b :: acc)
          | some bounds =>
            let nodes ← repeatLast start 1 bounds acc
            again nodes
        | .char '(' =>
          let start := start - 1
          match ← readOpening start with
          | .done none => again acc
          | .done (some part) => again (part :: acc)
          | .globalFlags =>
            let s ← get
            if !first || !acc.isEmpty then fail .lateGlobalFlags (s.position - start)
            else readSequence fuel (s.flags.contains .spaced) first acc
          | .look behind negated =>
            let outer := (← get).lookBehindFrom
            if behind && outer.isNone then
              let count ← groupCount
              modify fun s => { s with lookBehindFrom := some count }
            let body ← readChoices fuel spaced false []
            if behind && outer.isNone then
              modify fun s => { s with lookBehindFrom := none }
            expectClose start
            if behind then
              let (least, most) := widthAll (← get).groups body
              again (.lookBehind negated least most body :: acc)
            else again (.lookAhead negated body :: acc)
          | .condition index =>
            let yes ← readSequence fuel spaced false []
            let no ←
              if ← accept '|' then
                let no ← readSequence fuel spaced false []
                if (← peek) = some (.char '|') then fail .manyConditionalBranches 0
                else pure no
              else pure []
            expectClose start
            again (.conditional index yes no :: acc)
          | .body name capture atomic added dropped =>
            let index ← if capture then some <$> openGroup name else pure none
            let spacedInside := (spaced || added.contains .spaced) && !dropped.contains .spaced
            let body ← readChoices fuel spacedInside false []
            expectClose start
            if let some i := index then closeGroup i body
            if atomic then again (.atomic body :: acc)
            else again (.group index added dropped body :: acc)
        | .char c => again (.literal c.toNat :: acc)
end

def appetiteName : Appetite → String
  | .greedy => "MAX_REPEAT"
  | .lazy => "MIN_REPEAT"
  | .possessive => "POSSESSIVE_REPEAT"

mutual
/-- Checks what can only be told of a whole part: a look-behind needs one width. -/
def Node.check (template : Bool) : Node → Except Refusal Unit
  | .branch choices => checkAny template choices
  | .repeated _ _ appetite body =>
    if template then .error (.invalid (.templateRepeat (appetiteName appetite)) none)
    else checkAll template body
  | .group _ _ _ body | .atomic body | .lookAhead _ body => checkAll template body
  | .lookBehind _ least most body =>
    if repeatLimit < least then .error (.invalid .lookBehindFar none)
    else if least ≠ most then .error (.invalid .lookBehindWidth none)
    else checkAll template body
  | .conditional _ yes no => do
    checkAll template yes
    checkAll template no
  | _ => .ok ()
def checkAll (template : Bool) : List Node → Except Refusal Unit
  | [] => .ok ()
  | n :: rest => do
    n.check template
    checkAll template rest
def checkAny (template : Bool) : List (List Node) → Except Refusal Unit
  | [] => .ok ()
  | c :: rest => do
    checkAll template c
    checkAny template rest
end

/-- A whole pattern: alternatives, with nothing after them, and no condition on a missing group. -/
def readWhole (fuel : Nat) : Reading Compiled := do
  checkDangling
  let nodes ← readChoices fuel false true []
  let s ← get
  if s.flags.contains .ascii && s.flags.contains .unicode then throw .flagConflict
  else if !s.rest.isEmpty then fail .unbalancedParenthesis 0
  else match s.conditions.find? fun c => s.groups.length < c.1 with
    | some (index, position) => throw (.invalid (.invalidReference index) (some position))
    | none => return ⟨nodes, s.flags⟩

/-- The pattern that a text stands for. Every token is read at most once on each level, which the
number of rounds allows for. -/
def compile (text : String) : Except Refusal Compiled := do
  let cs := text.toList
  let (tokens, dangling) := tokens cs
  let start : Progress :=
    { rest := tokens, position := 0, dangling, flags := [], groups := [], names := []
      lookBehindFrom := none, conditions := [] }
  let (compiled, _) ← (readWhole (2 * tokens.length + 3)).run start
  checkAll (compiled.flags.contains .template) compiled.nodes
  return compiled

/-- The text of a problem with a pattern; when the pattern has several lines, with line and
column. -/
def describeProblem (pattern : String) (problem : Problem) (position : Option Nat) : String :=
  match position with
  | none => problem.message
  | some p =>
    let before := pattern.toList.take p
    let line := before.count '\n' + 1
    let column := (before.reverse.takeWhile (· != '\n')).length + 1
    if pattern.toList.contains '\n' then
      s!"{problem.message} at position {p} (line {line}, column {column})"
    else s!"{problem.message} at position {p}"

end GraphWorkbench.Pattern

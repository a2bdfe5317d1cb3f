import GraphWorkbench.Pattern.Basic
import GraphWorkbench.Text.Case
import GraphWorkbench.Text.Letters
/-!
Matching by backtracking. A part is run from a place in the text with a continuation, which tells
whether the rest of the pattern can match from where the part ends; the first way that lets the
continuation succeed wins. A repetition stops after a round that took no character.
-/
namespace GraphWorkbench.Pattern

/-- A place in the text, and the spans of the groups closed so far, the newest first. -/
structure Spot where
  position : Nat
  groups : List (Nat × Nat × Nat)

abbrev Continue := Spot → Option Spot

def Spot.span? (s : Spot) (index : Nat) : Option (Nat × Nat) :=
  (s.groups.find? (·.1 == index)).map Prod.snd

def isLineBreak (c : Char) : Bool := c == '\n'

def isWordIn (flags : Flags) (c : Char) : Bool :=
  if flags.contains .ascii then c.isAlphanum || c == '_' else Text.isWord c

/-- Whether a character is of a class; with the ASCII flag the classes hold ASCII only. -/
def CharClass.holds (flags : Flags) (c : Char) : CharClass → Bool
  | .digit => if flags.contains .ascii then c.isDigit else Text.isDigit c
  | .space =>
    if flags.contains .ascii then c == ' ' || (9 ≤ c.toNat && c.toNat ≤ 13) else Text.isBlank c
  | .word => isWordIn flags c

/-- The codes that stand for a character under the flags. -/
def variants (flags : Flags) (c : Char) : List Nat :=
  if !flags.contains .ignoreCase then [c.toNat]
  else if flags.contains .ascii then
    if c.isUpper then [c.toNat, c.toNat + 32]
    else if c.isLower then [c.toNat, c.toNat - 32]
    else [c.toNat]
  else Text.caseVariants c.toNat

def SetItem.holds (flags : Flags) (c : Char) : SetItem → Bool
  | .code n => (variants flags c).contains n
  | .range low high => (variants flags c).any fun n => low ≤ n && n ≤ high
  | .ofClass negated cls => cls.holds flags c != negated

/-- Whether two characters of the text count as the same for a reference to a group. -/
def sameChar (flags : Flags) (a b : Char) : Bool :=
  if !flags.contains .ignoreCase then a == b
  else if flags.contains .ascii then a.toLower == b.toLower
  else Text.small a == Text.small b

def wordAt (flags : Flags) (text : Array Char) (i : Nat) : Bool :=
  (text[i]?.map (isWordIn flags)).getD false

def Anchor.holds (flags : Flags) (text : Array Char) (i : Nat) : Anchor → Bool
  | .textStart => i == 0
  | .lineStart =>
    i == 0 || (flags.contains .multiline && (text[i - 1]?.map isLineBreak).getD false)
  | .textEnd => i == text.size
  | .lineEnd =>
    i == text.size || ((text[i]?.map isLineBreak).getD false &&
      (flags.contains .multiline || i + 1 == text.size))
  | .boundary => text.size != 0 && ((i != 0 && wordAt flags text (i - 1)) != wordAt flags text i)
  | .notBoundary => text.size != 0 && ((i != 0 && wordAt flags text (i - 1)) == wordAt flags text i)

/-- One character that passes a test. -/
def oneChar (text : Array Char) (test : Char → Bool) (s : Spot) (k : Continue) : Option Spot :=
  match text[s.position]? with
  | some c => if test c then k { s with position := s.position + 1 } else none
  | none => none

/-- The text of a closed group once more. -/
def repeatSpan (text : Array Char) (flags : Flags) (span : Nat × Nat) (s : Spot) (k : Continue) :
    Option Spot :=
  let length := span.2 - span.1
  let agrees := (List.range length).all fun j =>
    match text[span.1 + j]?, text[s.position + j]? with
    | some a, some b => sameChar flags a b
    | _, _ => false
  if agrees then k { s with position := s.position + length } else none

/-- One round of a repetition. -/
abbrev Round := Spot → Continue → Option Spot

/-- A fixed number of rounds. -/
def times (round : Round) : Nat → Spot → Continue → Option Spot
  | 0, s, k => k s
  | n + 1, s, k => round s fun s' => times round n s' k

def lessOne : Option Nat → Option Nat := Option.map (· - 1)

/-- As many further rounds as possible, fewer when what follows needs it. -/
def greedily (round : Round) (k : Continue) : Nat → Option Nat → Spot → Option Spot
  | 0, _, s => k s
  | fuel + 1, most, s =>
    if most = some 0 then k s
    else
      (round s fun s' =>
        if s'.position = s.position then k s'
        else greedily round k fuel (lessOne most) s').orElse fun _ => k s

/-- As few further rounds as possible, more when what follows needs it. -/
def lazily (round : Round) (k : Continue) : Nat → Option Nat → Spot → Option Spot
  | 0, _, s => k s
  | fuel + 1, most, s =>
    (k s).orElse fun _ =>
      if most = some 0 then none
      else round s fun s' =>
        if s'.position = s.position then k s' else lazily round k fuel (lessOne most) s'

/-- As many further rounds as possible, each kept as it first matched. -/
def eagerly (round : Round) : Nat → Option Nat → Spot → Spot
  | 0, _, s => s
  | fuel + 1, most, s =>
    if most = some 0 then s
    else match round s some with
      | none => s
      | some s' => if s'.position = s.position then s' else eagerly round fuel (lessOne most) s'

/-- A repetition. After the rounds it must make, each round but the last takes a character, so one
more than the rest of the text are enough. -/
def repeatRounds (size least : Nat) (most : Option Nat) (appetite : Appetite) (round : Round)
    (s : Spot) (k : Continue) : Option Spot :=
  let further := most.map (· - least)
  match appetite with
  | .greedy => times round least s fun s' =>
      greedily round k (size - s'.position + 1) further s'
  | .lazy => times round least s fun s' =>
      lazily round k (size - s'.position + 1) further s'
  | .possessive =>
    match times (fun s k => (round s some).bind k) least s some with
    | none => none
    | some s' => k (eagerly round (size - s'.position + 1) further s')

mutual
/-- Runs one part. -/
def Node.run (text : Array Char) (flags : Flags) : Node → Spot → Continue → Option Spot
  | .literal n, s, k => oneChar text (fun c => (SetItem.code n).holds flags c) s k
  | .anyChar, s, k => oneChar text (fun c => flags.contains .dotAll || !isLineBreak c) s k
  | .set negated items, s, k =>
    oneChar text (fun c => (items.any fun i => i.holds flags c) != negated) s k
  | .anchor a, s, k => if a.holds flags text s.position then k s else none
  | .branch choices, s, k => runAny text flags choices s k
  | .repeated least most appetite body, s, k =>
    repeatRounds text.size least most appetite (fun s k => runAll text flags body s k) s k
  | .group index added dropped body, s, k =>
    runAll text (flags.within added dropped) body s fun s' =>
      match index with
      | some i => k { s' with groups := (i, s.position, s'.position) :: s'.groups }
      | none => k s'
  | .atomic body, s, k => (runAll text flags body s some).bind k
  | .reference index, s, k =>
    match s.span? index with
    | some span => repeatSpan text flags span s k
    | none => none
  | .lookAhead negated body, s, k =>
    match runAll text flags body s some with
    | some s' => if negated then none else k { s' with position := s.position }
    | none => if negated then k s else none
  | .lookBehind negated least _ body, s, k =>
    let found :=
      if s.position < least then none
      else runAll text flags body { s with position := s.position - least } some
    match found with
    | some s' => if negated then none else k { s' with position := s.position }
    | none => if negated then k s else none
  | .conditional index yes no, s, k =>
    if (s.span? index).isSome then runAll text flags yes s k else runAll text flags no s k
/-- Runs parts one after another. -/
def runAll (text : Array Char) (flags : Flags) : List Node → Spot → Continue → Option Spot
  | [], s, k => k s
  | n :: rest, s, k => n.run text flags s fun s' => runAll text flags rest s' k
/-- Runs the first choice that succeeds. -/
def runAny (text : Array Char) (flags : Flags) : List (List Node) → Spot → Continue → Option Spot
  | [], _, _ => none
  | c :: rest, s, k => (runAll text flags c s k).orElse fun _ => runAny text flags rest s k
end

/-- A pattern that has been read: its parts and the flags of the whole. -/
structure Compiled where
  nodes : List Node
  flags : Flags

/-- Whether a pattern matches somewhere in a text. -/
def Compiled.foundIn (p : Compiled) (s : String) : Bool :=
  let text := s.toList.toArray
  (List.range (text.size + 1)).any fun i =>
    (runAll text p.flags p.nodes ⟨i, []⟩ some).isSome

end GraphWorkbench.Pattern

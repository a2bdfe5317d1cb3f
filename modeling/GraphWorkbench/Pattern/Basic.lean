/-!
Search patterns: their structure, the flags that change what they match, and the range of widths of
the texts they match.
-/
namespace GraphWorkbench.Pattern

/-- A switch that changes how a pattern matches or how it is read. -/
inductive Flag where
  | ignoreCase
  | bytewise
  | multiline
  | dotAll
  | spaced
  | ascii
  | template
  | unicode
deriving DecidableEq

abbrev Flags := List Flag

def Flag.ofChar? : Char → Option Flag
  | 'i' => some .ignoreCase
  | 'L' => some .bytewise
  | 'm' => some .multiline
  | 's' => some .dotAll
  | 'x' => some .spaced
  | 'a' => some .ascii
  | 't' => some .template
  | 'u' => some .unicode
  | _ => none

/-- The flags of which a pattern has one: which characters its classes know. -/
def Flag.isAlphabet : Flag → Bool
  | .ascii | .bytewise | .unicode => true
  | _ => false

/-- The flags of a group inside a pattern that has other flags. -/
def Flags.within (outer added dropped : Flags) : Flags :=
  let base := if added.any Flag.isAlphabet then outer.filter (!·.isAlphabet) else outer
  (base ++ added).filter fun f => !dropped.contains f

inductive CharClass where
  | digit
  | space
  | word
deriving DecidableEq

/-- One item of a character set; characters are held by their codes. -/
inductive SetItem where
  | code (n : Nat)
  | range (low high : Nat)
  | ofClass (negated : Bool) (cls : CharClass)
deriving DecidableEq

inductive Anchor where
  | textStart
  | lineStart
  | textEnd
  | lineEnd
  | boundary
  | notBoundary
deriving DecidableEq

/-- Which number of repetitions is tried first, and whether the others are tried at all. -/
inductive Appetite where
  | greedy
  | lazy
  | possessive
deriving DecidableEq

/-- One part of a pattern. The body of a part is a list of parts that match one after another. -/
inductive Node where
  | literal (code : Nat)
  | anyChar
  | set (negated : Bool) (items : List SetItem)
  | anchor (a : Anchor)
  | branch (choices : List (List Node))
  | repeated (least : Nat) (most : Option Nat) (appetite : Appetite) (body : List Node)
  | group (index : Option Nat) (added dropped : Flags) (body : List Node)
  | atomic (body : List Node)
  | reference (index : Nat)
  | lookAhead (negated : Bool) (body : List Node)
  | lookBehind (negated : Bool) (least most : Nat) (body : List Node)
  | conditional (index : Nat) (yes no : List Node)

/-- The bound that widths are cut to. -/
def maxWidth : Nat := Nat.pow 2 64

/-- A number of repetitions from which on a pattern is refused. -/
def repeatLimit : Nat := Nat.pow 2 32 - 1

/-- The least and the greatest number of characters that a match takes. -/
abbrev Width := Nat × Nat

def Width.cap (w : Width) : Width := (min w.1 maxWidth, min w.2 maxWidth)

def Width.add (v w : Width) : Width := (v.1 + w.1, v.2 + w.2)

mutual
/-- The widths of a part, given those of the groups before it. -/
def Node.width (groups : List (Option Width)) : Node → Width
  | .literal _ | .anyChar | .set _ _ => (1, 1)
  | .anchor _ | .lookAhead _ _ | .lookBehind _ _ _ _ => (0, 0)
  | .branch choices => (widthLeast groups choices, widthMost groups choices)
  | .repeated least most _ body =>
    let w := widthAll groups body
    (w.1 * least, match most with
      | some n => w.2 * n
      | none => if w.2 = 0 then 0 else maxWidth)
  | .group _ _ _ body | .atomic body => widthAll groups body
  | .reference index => ((groups[index - 1]?).join).getD (0, 0)
  | .conditional _ yes no =>
    let v := widthAll groups yes
    let w := widthAll groups no
    (min v.1 w.1, max v.2 w.2)
def widthAll (groups : List (Option Width)) (nodes : List Node) : Width :=
  Width.cap (widthSum groups nodes)
def widthSum (groups : List (Option Width)) : List Node → Width
  | [] => (0, 0)
  | n :: rest => Width.add (n.width groups) (widthSum groups rest)
def widthLeast (groups : List (Option Width)) : List (List Node) → Nat
  | [] => maxWidth
  | c :: rest => min (Width.cap (widthSum groups c)).1 (widthLeast groups rest)
def widthMost (groups : List (Option Width)) : List (List Node) → Nat
  | [] => 0
  | c :: rest => max (Width.cap (widthSum groups c)).2 (widthMost groups rest)
end

end GraphWorkbench.Pattern

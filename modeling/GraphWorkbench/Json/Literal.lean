import GraphWorkbench.Json.Basic
import GraphWorkbench.Numeric.Shortest
import GraphWorkbench.Text.Printable
/-!
The literal form in which messages quote values: texts in single quotes, truth values capitalised,
`None` for null. A text by itself, inside a sentence, stands as it is.
-/
namespace GraphWorkbench.Json

/-- A number as hexadecimal digits of a fixed width. -/
def hexText (width n : Nat) : List Char := padZeros width (Nat.toDigits 16 n)

/-- One character of a quoted text. -/
def literalChar (quote c : Char) : List Char :=
  if c == quote || c == '\\' then ['\\', c]
  else if c == '\t' then ['\\', 't']
  else if c == '\n' then ['\\', 'n']
  else if c == '\r' then ['\\', 'r']
  else if Text.isPrintable c then [c]
  else if c.toNat < 0x100 then '\\' :: 'x' :: hexText 2 c.toNat
  else if c.toNat < 0x10000 then '\\' :: 'u' :: hexText 4 c.toNat
  else '\\' :: 'U' :: hexText 8 c.toNat

/-- A text in quotes: single ones, unless it holds single quotes and no double ones. -/
def quoted (s : String) : List Char :=
  let cs := s.toList
  let quote := if cs.contains '\'' && !cs.contains '"' then '"' else '\''
  quote :: cs.flatMap (literalChar quote) ++ [quote]

mutual
/-- The literal form of a value. -/
def literalChars : Json → List Char
  | .null => "None".toList
  | .bool true => "True".toList
  | .bool false => "False".toList
  | .int n => (toString n).toList
  | .float x => x.toText.toList
  | .str s => quoted s
  | .arr items => '[' :: literalItems items
  | .obj fields => '\x7b' :: literalFields fields
/-- The items of a list, after its opening bracket. -/
def literalItems : List Json → List Char
  | [] => [']']
  | [v] => literalChars v ++ [']']
  | v :: w :: rest => literalChars v ++ ',' :: ' ' :: literalItems (w :: rest)
/-- The members of an object, after its opening brace. -/
def literalFields : List (String × Json) → List Char
  | [] => ['\x7d']
  | [(k, v)] => quoted k ++ ':' :: ' ' :: literalChars v ++ ['\x7d']
  | (k, v) :: w :: rest =>
    quoted k ++ ':' :: ' ' :: literalChars v ++ ',' :: ' ' :: literalFields (w :: rest)
end

def literal (v : Json) : String := String.ofList v.literalChars

/-- The form of a value inside a sentence. -/
def text : Json → String
  | .str s => s
  | v => v.literal

end GraphWorkbench.Json

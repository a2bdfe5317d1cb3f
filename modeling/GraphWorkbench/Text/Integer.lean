import GraphWorkbench.Text.Letters
/-!
Integers written as text: blanks around, a sign, and digits of any script, which single underscores
may part. There is a limit on the number of digits, leading zeros included.
-/
namespace GraphWorkbench.Text

/-- The value of digits parted by single underscores; `acc` is what the digits so far stand for. -/
def digitsValue? (acc : Nat) : List Char → Option Nat
  | [] => some acc
  | '_' :: c :: rest => match digitValue? c with
    | some d => digitsValue? (acc * 10 + d) rest
    | none => none
  | c :: rest => match digitValue? c with
    | some d => digitsValue? (acc * 10 + d) rest
    | none => none

/-- The natural that digits stand for, the first of them being a digit. -/
def natural? : List Char → Option Nat
  | [] => none
  | c :: rest => match digitValue? c with
    | some d => digitsValue? d rest
    | none => none

/-- The greatest number of digits that an integer may be written with. -/
def digitLimit : Nat := 4300

/-- The integer that a text stands for. -/
def integer? (cs : List Char) : Option Int :=
  if digitLimit < cs.countP fun c => (digitValue? c).isSome then none
  else match trimChars isBlank cs with
  | '-' :: rest => (natural? rest).map fun n => -(n : Int)
  | '+' :: rest => (natural? rest).map Int.ofNat
  | rest => (natural? rest).map Int.ofNat

end GraphWorkbench.Text

import GraphWorkbench.Numeric.Binary64
/-!
The shortest decimal text of a binary number: the fewest digits that read back as the same number,
and of those the decimal nearest to it. `NumeralStyle` holds the choices of one output format.
-/
namespace GraphWorkbench

/-- A decimal `0.d₁d₂d₃… * 10 ^ point`, without trailing zeros. -/
structure Decimal where
  digits : List Char
  point : Int
deriving DecidableEq

/-- The choices of a format that the value of a number leaves open. -/
structure NumeralStyle where
  /-- The least place of the decimal point that is written positionally. -/
  lowestPoint : Int
  /-- The greatest such place. -/
  highestPoint : Int
  /-- The least number of exponent digits. -/
  exponentWidth : Nat

namespace Binary64

/-- The number of decimal digits of a natural. -/
def digitCount (n : Nat) : Nat := (Nat.toDigits 10 n).length

/-- The place of the decimal point of `num / den`: that quotient is below `10 ^ p`, and not below
`10 ^ (p - 1)`. -/
def decimalPoint (num den : Nat) : Int :=
  if den ≤ num then (digitCount (num / den) : Int)
  else (digitCount (num * Nat.pow 10 400 / den) : Int) - 400

/-- The decimal grid with `n` digits: whether one of the two neighbours of the value lies in the
interval that rounds to it, and which. All quantities are in units of `1 / den`. -/
def onGrid? (num low high den : Nat) (closed : Bool) (point : Int) (n : Nat) : Option Nat :=
  let step : Int := point - n
  let up : Nat := if 0 ≤ step then Nat.pow 10 step.toNat else 1
  let down : Nat := if 0 ≤ step then 1 else Nat.pow 10 (-step).toNat
  -- a grid point `d` stands for `d * up * den / down` units
  let below := num * down / (up * den)
  let inside (d : Nat) : Bool :=
    let units := d * up * den
    if closed then low * down ≤ units && units ≤ high * down
    else low * down < units && units < high * down
  let distance (d : Nat) : Nat :=
    let units := d * up * den
    if units ≤ num * down then num * down - units else units - num * down
  match inside below, inside (below + 1) with
  | true, true =>
    if distance (below + 1) < distance below then some (below + 1)
    else if distance below < distance (below + 1) then some below
    else if below % 2 = 0 then some below else some (below + 1)
  | true, false => some below
  | false, true => some (below + 1)
  | false, false => none

/-- The digits of a natural without its trailing zeros. -/
def trimmedDigits (n : Nat) : List Char :=
  ((Nat.toDigits 10 n).reverse.dropWhile (· == '0')).reverse

/-- The shortest decimal that reads back as a given positive finite number. -/
def shortest (x : Binary64) : Decimal :=
  let m := x.significand
  -- in units of a quarter of the last bit
  let lowGap := if m = leadingBit ∧ 1 < x.exponentField then 1 else 2
  let up : Nat := if 1076 ≤ x.scale then Nat.pow 2 (x.scale - 1076) else 1
  let den : Nat := if 1076 ≤ x.scale then 1 else Nat.pow 2 (1076 - x.scale)
  let num := 4 * m * up
  let low := (4 * m - lowGap) * up
  let high := (4 * m + 2) * up
  let point := decimalPoint num den
  let found := (List.range 17).findSome? fun k =>
    (onGrid? num low high den (m % 2 == 0) point (k + 1)).map fun d => (d, k + 1)
  match found with
  | some (d, n) => ⟨trimmedDigits d, point + ((digitCount d : Int) - n)⟩
  | none => ⟨trimmedDigits num, point⟩

end Binary64

/-- Digits padded with zeros on the left up to a width. -/
def padZeros (width : Nat) (digits : List Char) : List Char :=
  List.replicate (width - digits.length) '0' ++ digits

/-- A decimal in a given style. A positional text always shows a digit after its point. -/
def NumeralStyle.render (style : NumeralStyle) (d : Decimal) : List Char :=
  if style.lowestPoint ≤ d.point ∧ d.point ≤ style.highestPoint then
    if d.point ≤ 0 then '0' :: '.' :: (List.replicate (-d.point).toNat '0' ++ d.digits)
    else
      let whole := d.digits.take d.point.toNat
      let rest := d.digits.drop d.point.toNat
      whole ++ List.replicate (d.point.toNat - whole.length) '0' ++
        '.' :: (if rest.isEmpty then ['0'] else rest)
  else
    let e := d.point - 1
    let exponent := padZeros style.exponentWidth (Nat.toDigits 10 e.natAbs)
    let lead := match d.digits with
      | [] => ['0']
      | [c] => [c]
      | c :: rest => c :: '.' :: rest
    lead ++ 'e' :: (if e < 0 then '-' else '+') :: exponent

/-- Numbers are written positionally from `0.0001` up to below `10 ^ 16`, and with an exponent of
at least two digits outside that range. -/
def plainNumerals : NumeralStyle := ⟨-3, 16, 2⟩

/-- The text of a number; zero keeps its sign. -/
def Binary64.toText (x : Binary64) : String :=
  if x.isNaN then "nan"
  else
    let body : List Char :=
      if x.isInfinite then ['i', 'n', 'f']
      else if x.isZero then ['0', '.', '0']
      else plainNumerals.render x.shortest
    String.ofList (if x.isNegative then '-' :: body else body)

end GraphWorkbench

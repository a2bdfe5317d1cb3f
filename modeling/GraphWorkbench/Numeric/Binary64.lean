/-!
Binary floating-point numbers of 64 bits, held by their bits, with exact arithmetic on naturals
behind every operation. A finite number is a significand times a power of two; rounding is to the
nearest number, a tie going to the even significand.
-/
namespace GraphWorkbench

/-- A 64-bit binary number: one sign bit, eleven exponent bits, fifty-two fraction bits. -/
structure Binary64 where
  bits : UInt64
deriving DecidableEq, Inhabited

/-- A rational number, an infinity, or no number at all. The denominator is never zero. -/
inductive Extended where
  | finite (num : Int) (den : Nat)
  | infinite (negative : Bool)
  | undefined
deriving DecidableEq, Inhabited

namespace Extended

def ofInt (n : Int) : Extended := .finite n 1

/-- Equality of values; an undefined value equals nothing. -/
def eq : Extended → Extended → Bool
  | .finite a b, .finite c d => a * d == c * b
  | .infinite s, .infinite t => s == t
  | _, _ => false

/-- Sameness of values: equality, with every undefined value the same as any other. -/
def alike : Extended → Extended → Bool
  | .undefined, .undefined => true
  | x, y => eq x y

/-- Strict order of values; an undefined value is below and above nothing. -/
def lt : Extended → Extended → Bool
  | .finite a b, .finite c d => decide (a * d < c * b)
  | .infinite s, .infinite t => s && !t
  | .infinite s, .finite _ _ => s
  | .finite _ _, .infinite t => !t
  | _, _ => false

def le (x y : Extended) : Bool := lt x y || eq x y

theorem eq_comm (x y : Extended) : eq x y = eq y x := by
  cases x <;> cases y <;> simp [eq] <;> grind

end Extended

namespace Binary64

/-- The place of the leading bit, which normal numbers leave out; the exponent field starts there.
-/
def leadingBit : Nat := Nat.pow 2 52

/-- The place of the sign bit. -/
def signBit : Nat := Nat.pow 2 63

/-- The fraction bits of a number read as a natural. -/
def fraction (x : Binary64) : Nat := x.bits.toNat % leadingBit

/-- The exponent field, from 0 to 2047. -/
def exponentField (x : Binary64) : Nat := x.bits.toNat / leadingBit % Nat.pow 2 11

def isNegative (x : Binary64) : Bool := decide (signBit ≤ x.bits.toNat)

def isNaN (x : Binary64) : Bool := x.exponentField == 2047 && x.fraction != 0

def isInfinite (x : Binary64) : Bool := x.exponentField == 2047 && x.fraction == 0

def isFinite (x : Binary64) : Bool := x.exponentField != 2047

/-- The whole significand, with the leading bit that normal numbers leave out. -/
def significand (x : Binary64) : Nat :=
  if x.exponentField = 0 then x.fraction else leadingBit + x.fraction

/-- The exponent of the last bit of the significand, plus 1074. -/
def scale (x : Binary64) : Nat := x.exponentField - 1

/-- The number with the given sign and the given 63 remaining bits. -/
def ofMagnitudeBits (negative : Bool) (magnitude : Nat) : Binary64 :=
  ⟨UInt64.ofNat ((if negative then signBit else 0) + magnitude)⟩

def infinity (negative : Bool) : Binary64 := ofMagnitudeBits negative (2047 * leadingBit)

def nan : Binary64 := ofMagnitudeBits false (2047 * leadingBit + leadingBit / 2)

/-- A quotient of naturals, rounded to the nearest natural, a tie to the even one. -/
def divNearest (num den : Nat) : Nat :=
  let q := num / den
  let r := num % den
  if 2 * r < den then q
  else if den < 2 * r then q + 1
  else if q % 2 = 0 then q else q + 1

/-- The number nearest to a quotient of naturals; an infinity when it is out of range. -/
def ofRatio (negative : Bool) (num den : Nat) : Binary64 :=
  if num = 0 then ofMagnitudeBits negative 0 else
    let low : Int := (num.log2 : Int) - (den.log2 : Int) - 52
    -- The quotient scaled by `2 ^ -low` lies between `2 ^ 51` and `2 ^ 53`.
    let small : Bool :=
      if 0 ≤ low then num < leadingBit * (den * Nat.pow 2 low.toNat)
      else num * Nat.pow 2 (-low).toNat < leadingBit * den
    let exponent : Int := max (if small then low - 1 else low) (-1074)
    let rounded : Nat :=
      if 0 ≤ exponent then divNearest num (den * Nat.pow 2 exponent.toNat)
      else divNearest (num * Nat.pow 2 (-exponent).toNat) den
    let magnitude := (exponent + 1074).toNat * leadingBit + rounded
    if 2047 * leadingBit ≤ magnitude then infinity negative else ofMagnitudeBits negative magnitude

def ofInt (n : Int) : Binary64 := ofRatio (n < 0) n.natAbs 1

/-- The number nearest to `digits * 10 ^ exponent`. Far outside the range the power is not formed.
-/
def ofDecimal (negative : Bool) (digits : Nat) (exponent : Int) : Binary64 :=
  if digits = 0 then ofMagnitudeBits negative 0
  else if exponent > 400 then infinity negative
  else if exponent + (digits.log2 : Int) < -1200 then ofMagnitudeBits negative 0
  else if 0 ≤ exponent then ofRatio negative (digits * Nat.pow 10 exponent.toNat) 1
  else ofRatio negative digits (Nat.pow 10 (-exponent).toNat)

/-- The value of a number. -/
def value (x : Binary64) : Extended :=
  if x.isNaN then .undefined
  else if x.isInfinite then .infinite x.isNegative
  else
    let num : Int := if x.isNegative then -(x.significand : Int) else x.significand
    if 1074 ≤ x.scale then .finite (num * Nat.pow 2 (x.scale - 1074)) 1
    else .finite num (Nat.pow 2 (1074 - x.scale))

def isZero (x : Binary64) : Bool := x.bits.toNat % signBit == 0

/-- The integer that a number is, if it is one. -/
def toInt? (x : Binary64) : Option Int :=
  match x.value with
  | .finite num den => if num % den = 0 then some (num / den) else none
  | _ => none

/-- The product, rounded; an undefined number for zero times an infinity. -/
def mul (x y : Binary64) : Binary64 :=
  let negative := x.isNegative != y.isNegative
  if x.isNaN || y.isNaN then nan
  else if x.isInfinite || y.isInfinite then
    if x.isZero || y.isZero then nan else infinity negative
  else
    let num := x.significand * y.significand
    let scale := x.scale + y.scale
    if 2148 ≤ scale then ofRatio negative (num * Nat.pow 2 (scale - 2148)) 1
    else ofRatio negative num (Nat.pow 2 (2148 - scale))

instance : OfNat Binary64 n := ⟨ofInt n⟩

end Binary64

end GraphWorkbench

import GraphWorkbench.Calendar.Iso
import GraphWorkbench.Numeric.Shortest
/-!
Instants: days with a time, to the microsecond, and the offset of the clock from universal time
where it is known. They are written as a day, a letter or blank and a time, or as a number of
seconds or milliseconds since the start of 1970.
-/
namespace GraphWorkbench.Calendar

structure Instant where
  year : Nat
  month : Nat
  day : Nat
  hour : Nat := 0
  minute : Nat := 0
  second : Nat := 0
  microsecond : Nat := 0
  /-- Seconds ahead of universal time. -/
  offset : Option Int := none
deriving DecidableEq, Inhabited

/-- What keeps a text or a number from being an instant or a day. -/
inductive InstantDefect where
  | tooShort
  | badYear
  | badSeparator
  | badMonth
  | badDay
  | monthRange
  | dayRange
  | extraCharacters
  | tooEarly
  | tooLate
  | notNumber
  | yearZero
deriving DecidableEq

def InstantDefect.message : InstantDefect → String
  | .tooShort => "input is too short"
  | .badYear => "invalid character in year"
  | .badSeparator => "invalid date separator, expected \x60-\x60"
  | .badMonth => "invalid character in month"
  | .badDay => "invalid character in day"
  | .monthRange => "month value is outside expected range of 1-12"
  | .dayRange => "day value is outside expected range"
  | .extraCharacters => "unexpected extra characters at the end of the input"
  | .tooEarly => "dates before 0000 are not supported as unix timestamps"
  | .tooLate => "dates after 9999 are not supported as unix timestamps"
  | .notNumber => "NaN values not permitted"
  | .yearZero => "year 0 is out of range"

namespace Instant

/-- The digits at a place, or a given defect. -/
def number (text : Bytes) (start count : Nat) (defect : InstantDefect) : Except InstantDefect Nat :=
  match digitsAt? text start count with
  | some n => .ok n
  | none => .error defect

def separator (text : Bytes) (place : Nat) : Except InstantDefect Unit :=
  if byteAt text place == 45 then .ok () else .error .badSeparator

/-- The day at the start of a text. -/
def dayIn (text : Bytes) : Except InstantDefect Instant := do
  if text.size < 10 then throw .tooShort
  let year ← number text 0 4 .badYear
  separator text 4
  let month ← number text 5 2 .badMonth
  separator text 7
  let day ← number text 8 2 .badDay
  if month < 1 ∨ 12 < month then throw .monthRange
  if day < 1 ∨ daysInMonth year month < day then throw .dayRange
  return { year, month, day }

/-- The number of digits from a place on. -/
def digitRun (text : Bytes) (start : Nat) : Nat :=
  ((text.toList.drop start).takeWhile isDigitByte).length

/-- The microseconds that digits after the mark stand for, of which six count. -/
def microseconds? (text : Bytes) (start length : Nat) : Option Nat :=
  (digitsAt? text start (min length 6)).map fun n => n * Nat.pow 10 (6 - min length 6)

/-- The seconds at a place, with their fraction, and where they end. Without seconds the time is
that of the full minute. -/
def secondsAt? (text : Bytes) (start : Nat) : Option (Nat × Nat × Nat) := do
  if byteAt text start != 58 then return (0, 0, start)
  let second ← digitsAt? text (start + 1) 2
  if 59 < second then none
  let mark := start + 3
  if byteAt text mark != 46 && byteAt text mark != 44 then return (second, 0, mark)
  let length := digitRun text (mark + 1)
  if length = 0 then none
  return (second, ← microseconds? text (mark + 1) length, mark + 1 + length)

/-- The sign of an offset at a place, which may be a true minus sign, and where it ends. -/
def signAt? (text : Bytes) (start : Nat) : Option (Int × Nat) :=
  let b := byteAt text start
  if b == 43 then some (1, start + 1)
  else if b == 45 then some (-1, start + 1)
  else if b == 226 && byteAt text (start + 1) == 136 && byteAt text (start + 2) == 146 then
    some (-1, start + 3)
  else none

/-- The offset at a place, if there is one, and where it ends. -/
def offsetAt? (text : Bytes) (start : Nat) : Option (Option Int × Nat) := do
  if text.size ≤ start then return (none, start)
  let b := byteAt text start
  if b == 90 || b == 122 then return (some 0, start + 1)
  let (sign, start) ← signAt? text start
  let hours ← digitsAt? text start 2
  let start := if byteAt text (start + 2) == 58 then start + 3 else start + 2
  let minutes ← digitsAt? text start 2
  let seconds := hours * 3600 + minutes * 60
  if 59 < minutes ∨ 24 * 3600 ≤ seconds then none
  return (some (sign * seconds), start + 2)

/-- The time of day and the offset that fill a text from a place on. -/
def withTime? (d : Instant) (text : Bytes) (start : Nat) : Option Instant := do
  let hour ← digitsAt? text start 2
  if byteAt text (start + 2) != 58 then none
  let minute ← digitsAt? text (start + 3) 2
  if 23 < hour ∨ 59 < minute then none
  let (second, microsecond, stop) ← secondsAt? text (start + 5)
  let (offset, stop) ← offsetAt? text stop
  if stop < text.size then none
  return { d with hour, minute, second, microsecond, offset }

/-- A day, one of four characters, and a time. -/
def ofParts? (text : Bytes) : Option Instant := do
  let d ← (dayIn text).toOption
  let b := byteAt text 10
  if b != 84 && b != 116 && b != 32 && b != 95 then none
  d.withTime? text 11

/-- The greatest number that is taken for seconds; a greater one counts milliseconds. -/
def secondsBound : Int := 20000000000

def startOf0000 : Int := -62167219200

def endOf9999 : Int := 253402300799

/-- The seconds and microseconds of a number of seconds or milliseconds. -/
def scaled (n : Int) : Int × Nat :=
  if (n.natAbs : Int) ≤ secondsBound then (n, 0)
  else (n.fdiv 1000, (n.fmod 1000).toNat * 1000)

/-- The instant of a number of seconds or milliseconds and of microseconds more. -/
def ofCount (n : Int) (more : Nat) : Except InstantDefect Instant := do
  let (seconds, micros) := scaled n
  let total := micros + more
  let seconds := seconds + ((total / 1000000 : Nat) : Int)
  if seconds < startOf0000 then throw .tooEarly
  if endOf9999 < seconds then throw .tooLate
  let days := seconds.fdiv 86400 + (dayNumber 1970 1 1 : Int)
  let rest := (seconds.fmod 86400).toNat
  let (year, month, day) : Nat × Nat × Nat :=
    if days < 1 then (0, monthAndDay 0 12 1 (days + 365).toNat) else ofDayNumber days.toNat
  return { year, month, day
           hour := rest / 3600, minute := rest / 60 % 60, second := rest % 60
           microsecond := total % 1000000, offset := some 0 }

/-- What the size of a word must stay below. -/
def wordLimit : Nat := Nat.pow 2 63

/-- The integer that a sign and digits stand for, if it fits into a word. -/
def wordOf? (cs : List Char) : Option Int := do
  let (negative, digits) := match cs with
    | '-' :: rest => (true, rest)
    | '+' :: rest => (false, rest)
    | cs => (false, cs)
  if digits.isEmpty || !digits.all Char.isDigit then none
  let n : Nat := digits.foldl (fun n c => n * 10 + (c.toNat - 48)) 0
  if n < wordLimit then some (if negative then -(n : Int) else n) else none

/-- The quotient rounded to the nearest natural, a half upwards. -/
def divHalfUp (num den : Nat) : Nat := (2 * num + den) / (2 * den)

/-- The microseconds that the digits after the point stand for: of seconds, or of milliseconds when
the count is of those. -/
def fractionOf? (n : Int) (digits : List Char) : Option Nat := do
  if digits.isEmpty then return 0
  let f := (← wordOf? digits).toNat
  let places := if secondsBound < n then 3 else 6
  if digits.length ≤ places then return f * Nat.pow 10 (places - digits.length)
  else return divHalfUp f (Nat.pow 10 (digits.length - places))

/-- The instant of a count written as text; none when the text is no count. -/
def ofCountText? (cs : List Char) : Option (Except InstantDefect Instant) := do
  let whole := cs.takeWhile (· != '.')
  let n ← wordOf? whole
  return ofCount n (← fractionOf? n (cs.drop (whole.length + 1)))

/-- The instant that a text stands for, or else the day, or why it is neither. -/
def ofText (s : String) : Except InstantDefect Instant :=
  let text := s.toUTF8.data
  match ofParts? text with
  | some i => .ok i
  | none => match ofCountText? s.toList with
    | some (.ok i) => .ok i
    | counted => match dayIn text with
      | .ok d => if text.size = 10 then .ok d else .error .extraCharacters
      | .error defect => match wordOf? s.toList, counted with
        | some _, some (.error countDefect) => .error countDefect
        | _, _ => .error defect

/-- The instant of a whole number, which counts as the nearest word when it is none. -/
def ofInt (n : Int) : Except InstantDefect Instant :=
  ofCount (max (-wordLimit) (min (wordLimit - 1) n)) 0

/-- The instant of a number: its floor, with the microseconds of its fraction. -/
def ofBinary (x : Binary64) : Except InstantDefect Instant :=
  match x.value with
  | .undefined => .error .notNumber
  | .infinite negative => if negative then .error .tooEarly else .error .tooLate
  | .finite num den =>
    let fraction := Binary64.ofRatio false (num.natAbs % den) den
    let micros := match (Binary64.mul fraction 1000000).value with
      | .finite n d => divHalfUp n.toNat d
      | _ => 0
    ofCount (max (-wordLimit) (min (wordLimit - 1) (num.fdiv den))) micros

/-- Microseconds of universal time since the day before the first of the calendar; the clock counts
as universal when its offset is not known. -/
def universal (i : Instant) : Int :=
  let seconds : Int := ((dayNumber i.year i.month i.day * 24 + i.hour) * 60 + i.minute) * 60 + i.second
  (seconds - i.offset.getD 0) * 1000000 + i.microsecond

def padded (width n : Nat) : String := String.ofList (padZeros width (Nat.toDigits 10 n))

def offsetText : Option Int → String
  | none => ""
  | some 0 => "Z"
  | some seconds =>
    let minutes := seconds.natAbs / 60
    let sign := if seconds < 0 then "-" else "+"
    s!"{sign}{padded 2 (minutes / 60)}:{padded 2 (minutes % 60)}"

/-- An instant as text, with a fraction only where there is one. -/
def toText (i : Instant) : String :=
  let fraction := if i.microsecond = 0 then "" else s!".{padded 6 i.microsecond}"
  s!"{padded 4 i.year}-{padded 2 i.month}-{padded 2 i.day}T" ++
    s!"{padded 2 i.hour}:{padded 2 i.minute}:{padded 2 i.second}{fraction}{offsetText i.offset}"

end Instant

end GraphWorkbench.Calendar

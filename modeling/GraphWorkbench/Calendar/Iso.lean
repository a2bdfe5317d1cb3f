import GraphWorkbench.Calendar.Day
/-!
Texts that name a day, or a day with a time, in the forms of the international standard: with or
without separators, by month or by week, with an optional offset from universal time. The forms are
told apart by the bytes at fixed places; a place past the end reads as zero.
-/
namespace GraphWorkbench.Calendar

abbrev Bytes := Array UInt8

def byteAt (text : Bytes) (i : Nat) : UInt8 := text[i]?.getD 0

def isDigitByte (b : UInt8) : Bool := 48 ≤ b && b ≤ 57

/-- The number that `count` digits from a place on stand for. -/
def digitsAt? (text : Bytes) (start count : Nat) : Option Nat :=
  (List.range count).foldl (fun acc j => do
    let n ← acc
    let b := byteAt text (start + j)
    if isDigitByte b then some (n * 10 + (b.toNat - 48)) else none) (some 0)

/-- Whether a year has a week of a number; the first week has the first Thursday. -/
def hasWeek (year week : Nat) : Bool :=
  if 1 ≤ week ∧ week ≤ 52 then true
  else if week = 53 then
    -- the weekday of the first of January, Monday being zero
    let first := (daysBeforeYear year) % 7
    first == 3 || (first == 2 && isLeap year)
  else false

/-- The day number of a weekday of a week of a year. -/
def dayOfWeek (year week day : Nat) : Int :=
  let before : Int := daysBeforeYear year
  let weekday := before % 7
  let monday := before - weekday + (if weekday > 3 then 7 else 0)
  monday + ((week : Int) - 1) * 7 + day

/-- Whether a day can be read at the start of a text; `length` is the length that the day should
have. -/
def dayAtStart (text : Bytes) (length : Nat) : Bool :=
  match digitsAt? text 0 4 with
  | none => false
  | some year =>
    let parted := byteAt text 4 == 45
    let start := if parted then 5 else 4
    if byteAt text start == 87 then
      match digitsAt? text (start + 1) 2 with
      | none => false
      | some week =>
        let after := start + 3
        let day :=
          if after < length then
            if parted then
              if byteAt text after == 45 then digitsAt? text (after + 1) 1 else none
            else digitsAt? text after 1
          else some 1
        match day with
        | none => false
        | some day =>
          1 ≤ year && year ≤ 9999 && hasWeek year week && 1 ≤ day && day ≤ 7 &&
            1 ≤ dayOfWeek year week day && dayOfWeek year week day ≤ dayNumber 9999 12 31
    else
      match digitsAt? text start 2 with
      | none => false
      | some month =>
        if parted && byteAt text (start + 2) != 45 then false
        else match digitsAt? text (if parted then start + 3 else start + 2) 2 with
          | none => false
          | some day => 1 ≤ year && isDay year month day

/-- A text that is a day and nothing else. -/
def isDayText (text : Bytes) : Bool :=
  (text.size == 7 || text.size == 8 || text.size == 10) && dayAtStart text text.size

/-- Where the day ends in a text of a day with a time. -/
def dayLength? (text : Bytes) : Option Nat :=
  let n := text.size
  if n = 7 then some 7
  else if byteAt text 4 == 45 then
    if byteAt text 5 == 87 then
      if n < 8 then none
      else if 8 < n ∧ byteAt text 8 = 45 then
        if n = 9 then none
        else if 10 < n ∧ isDigitByte (byteAt text 10) then some 8
        else some 10
      else some 8
    else some 10
  else if byteAt text 4 == 87 then
    let digits := ((text.toList.drop 7).takeWhile isDigitByte).length
    let stop := 7 + digits
    if stop < 9 then some stop else if stop % 2 = 0 then some 7 else some 8
  else some 8

/-- A time of day or an offset: hours, minutes, seconds and millionths. -/
structure Clock where
  hours : Nat := 0
  minutes : Nat := 0
  seconds : Nat := 0
  micros : Nat := 0

/-- The millionths after a decimal mark, from `start` up to `stop`; further digits are cut. The flag
tells whether something follows. -/
def fractionAt? (text : Bytes) (start stop : Nat) : Option (Nat × Bool) :=
  let count := min 6 (stop - start)
  match digitsAt? text start count with
  | none => none
  | some n =>
    let more := ((text.toList.drop (start + count)).takeWhile isDigitByte).length
    some (n * Nat.pow 10 (6 - count), byteAt text (start + count + more) != 0)

/-- A point or a comma. -/
def isDecimalMark (b : UInt8) : Bool := b == 46 || b == 44

/-- A clock reading from `start` up to `stop`, and whether something else follows it. -/
def clockAt? (text : Bytes) (start stop : Nat) : Option (Clock × Bool) := do
  let hours ← digitsAt? text start 2
  let c := byteAt text (start + 2)
  let parted := c == 58
  if stop ≤ start + 3 then return (⟨hours, 0, 0, 0⟩, c != 0)
  if isDecimalMark c then
    let (micros, more) ← fractionAt? text (start + 3) stop
    return (⟨hours, 0, 0, micros⟩, more)
  let p := if parted then start + 3 else start + 2
  let minutes ← digitsAt? text p 2
  let c := byteAt text (p + 2)
  if stop ≤ p + 3 then return (⟨hours, minutes, 0, 0⟩, c != 0)
  if isDecimalMark c then
    let (micros, more) ← fractionAt? text (p + 3) stop
    return (⟨hours, minutes, 0, micros⟩, more)
  if parted && c != 58 then none
  let p := if parted then p + 3 else p + 2
  let seconds ← digitsAt? text p 2
  let c := byteAt text (p + 2)
  if stop ≤ p + 3 then return (⟨hours, minutes, seconds, 0⟩, c != 0)
  -- where colons separate, one more of them is as good as a decimal mark
  if isDecimalMark c || parted && c == 58 then
    let (micros, more) ← fractionAt? text (p + 3) stop
    return (⟨hours, minutes, seconds, micros⟩, more)
  if parted then none
  -- without separators further digits count as a fraction
  let (micros, more) ← fractionAt? text (p + 2) stop
  return (⟨hours, minutes, seconds, micros⟩, more)

/-- Whether a time with an optional offset stands from `start` to the end of a text. -/
def timeFrom (text : Bytes) (start : Nat) : Bool :=
  let isMark (b : UInt8) : Bool := b == 43 || b == 45 || b == 90
  let mark := start + ((text.toList.drop start).takeWhile fun b => !isMark b).length
  match clockAt? text start mark with
  | none => false
  | some (clock, more) =>
    let timely := decide (clock.hours < 24 ∧ clock.minutes < 60 ∧ clock.seconds < 60)
    if mark = text.size then !more && timely
    else if byteAt text mark == 90 then byteAt text (mark + 1) == 0 && timely
    else match clockAt? text (mark + 1) text.size with
      | none => false
      | some (offset, more) =>
        -- an offset is less than a day either way
        let seconds := offset.hours * 3600 + offset.minutes * 60 + offset.seconds
        !more && timely && seconds < 86400

/-- The number of bytes of the character that starts with a byte. -/
def characterWidth (b : UInt8) : Nat :=
  if b < 0x80 then 1
  else if 0xe0 ≤ b && b < 0xf0 then 3
  else if 0xf0 ≤ b then 4
  else 2

/-- A text that is a day, or a day, one character of any kind, and a time. -/
def isDayTimeText (text : Bytes) : Bool :=
  if text.size < 7 then false
  else match dayLength? text with
    | none => false
    | some length =>
      dayAtStart text length &&
        (text.size ≤ length || timeFrom text (length + characterWidth (byteAt text length)))

/-- Whether a text names a day, with or without a time. A `Z` at the end is an offset of zero. -/
def isIsoDate (s : String) : Bool :=
  let cs := s.toList
  let text := if cs.getLast? = some 'Z' then String.ofList cs.dropLast ++ "+00:00" else s
  let bytes := text.toUTF8.data
  isDayText bytes || isDayTimeText bytes

end GraphWorkbench.Calendar

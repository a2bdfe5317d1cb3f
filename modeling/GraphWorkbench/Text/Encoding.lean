/-!
The text that bytes stand for. The encoding is told from a mark at the start, or from where the zero
bytes of the first characters stand. Unpaired surrogates become the replacement character.
-/
namespace GraphWorkbench.Text

inductive Encoding where
  | utf8
  | utf16 (bigEndian : Bool)
  | utf32 (bigEndian : Bool)
deriving DecidableEq

def Encoding.name : Encoding → String
  | .utf8 => "utf-8"
  | .utf16 false => "utf-16-le"
  | .utf16 true => "utf-16-be"
  | .utf32 false => "utf-32-le"
  | .utf32 true => "utf-32-be"

inductive EncodingDefect where
  | invalidStart
  | invalidContinuation
  | unexpectedEnd
  | truncated
  | outOfRange
deriving DecidableEq

def EncodingDefect.message : EncodingDefect → String
  | .invalidStart => "invalid start byte"
  | .invalidContinuation => "invalid continuation byte"
  | .unexpectedEnd => "unexpected end of data"
  | .truncated => "truncated data"
  | .outOfRange => "code point not in range(0x110000)"

/-- Bytes that are no text: the first offending bytes and where they stand. -/
structure EncodingError where
  encoding : Encoding
  defect : EncodingDefect
  position : Nat
  first : UInt8
  count : Nat

/-- A byte as two hexadecimal digits. -/
def hexByte (b : UInt8) : String :=
  String.ofList [Nat.digitChar (b.toNat / 16), Nat.digitChar (b.toNat % 16)]

def EncodingError.message (e : EncodingError) : String :=
  let place :=
    if e.count = 1 then s!"byte 0x{hexByte e.first} in position {e.position}"
    else s!"bytes in position {e.position}-{e.position + e.count - 1}"
  s!"'{e.encoding.name}' codec can't decode {place}: {e.defect.message}"

/-- The encoding of some bytes, the number of bytes its mark takes, and the position that the first
byte after the mark counts as. -/
def Encoding.detect (bytes : List UInt8) : Encoding × Nat × Nat :=
  match bytes with
  | 0x00 :: 0x00 :: 0xfe :: 0xff :: _ => (.utf32 true, 4, 4)
  | 0xff :: 0xfe :: 0x00 :: 0x00 :: _ => (.utf32 false, 4, 4)
  | 0xfe :: 0xff :: _ => (.utf16 true, 2, 2)
  | 0xff :: 0xfe :: _ => (.utf16 false, 2, 2)
  | 0xef :: 0xbb :: 0xbf :: _ => (.utf8, 3, 0)
  | a :: b :: c :: d :: _ =>
    if a = 0 then (if b = 0 then .utf32 true else .utf16 true, 0, 0)
    else if b = 0 then (if c = 0 ∧ d = 0 then .utf32 false else .utf16 false, 0, 0)
    else (.utf8, 0, 0)
  | [a, b] => (if a = 0 then .utf16 true else if b = 0 then .utf16 false else .utf8, 0, 0)
  | _ => (.utf8, 0, 0)

def isContinuation (b : UInt8) : Bool := 0x80 ≤ b && b < 0xc0

/-- The character of a code, or the replacement character for a code that no character has. -/
def charOrReplacement (n : Nat) : Char := if n.isValidChar then Char.ofNat n else '\ufffd'

def decodeUtf8 (position : Nat) : List UInt8 → Except EncodingError (List Char)
  | [] => .ok []
  | a :: rest =>
    let fail (defect : EncodingDefect) (count : Nat) : Except EncodingError (List Char) :=
      .error ⟨.utf8, defect, position, a, count⟩
    if a < 0x80 then (decodeUtf8 (position + 1) rest).map (Char.ofNat a.toNat :: ·)
    else if a < 0xc2 then fail .invalidStart 1
    else if a < 0xe0 then
      match rest with
      | [] => fail .unexpectedEnd 1
      | b :: rest =>
        if !isContinuation b then fail .invalidContinuation 1
        else (decodeUtf8 (position + 2) rest).map
          (charOrReplacement ((a.toNat - 0xc0) * 64 + (b.toNat - 0x80)) :: ·)
    else if a < 0xf0 then
      match rest with
      | [] => fail .unexpectedEnd 1
      | b :: rest =>
        if !isContinuation b || (a == 0xe0 && b < 0xa0) then fail .invalidContinuation 1
        else match rest with
        | [] => if a == 0xed && 0xa0 ≤ b then fail .invalidContinuation 1 else fail .unexpectedEnd 2
        | c :: rest =>
          if !isContinuation c then
            if a == 0xed && 0xa0 ≤ b then fail .invalidContinuation 1
            else fail .invalidContinuation 2
          else (decodeUtf8 (position + 3) rest).map
            (charOrReplacement
              ((a.toNat - 0xe0) * 4096 + (b.toNat - 0x80) * 64 + (c.toNat - 0x80)) :: ·)
    else if a < 0xf5 then
      match rest with
      | [] => fail .unexpectedEnd 1
      | b :: rest =>
        if !isContinuation b || (a == 0xf0 && b < 0x90) || (a == 0xf4 && 0x90 ≤ b) then
          fail .invalidContinuation 1
        else match rest with
        | [] => fail .unexpectedEnd 2
        | c :: rest =>
          if !isContinuation c then fail .invalidContinuation 2
          else match rest with
          | [] => fail .unexpectedEnd 3
          | d :: rest =>
            if !isContinuation d then fail .invalidContinuation 3
            else (decodeUtf8 (position + 4) rest).map
              (charOrReplacement ((a.toNat - 0xf0) * 262144 + (b.toNat - 0x80) * 4096 +
                (c.toNat - 0x80) * 64 + (d.toNat - 0x80)) :: ·)
    else fail .invalidStart 1

/-- The sixteen-bit units of some bytes. -/
def units16 (bigEndian : Bool) (position : Nat) : List UInt8 → Except EncodingError (List Nat)
  | [] => .ok []
  | [a] => .error ⟨.utf16 bigEndian, .truncated, position, a, 1⟩
  | a :: b :: rest =>
    (units16 bigEndian (position + 2) rest).map
      ((if bigEndian then a.toNat * 256 + b.toNat else b.toNat * 256 + a.toNat) :: ·)

/-- The characters of sixteen-bit units, a surrogate pair being one character. -/
def charsOfUnits : List Nat → List Char
  | [] => []
  | h :: rest =>
    if 0xd800 ≤ h ∧ h ≤ 0xdbff then
      match rest with
      | l :: rest' =>
        if 0xdc00 ≤ l ∧ l ≤ 0xdfff then
          charOrReplacement (0x10000 + (h - 0xd800) * 0x400 + (l - 0xdc00)) :: charsOfUnits rest'
        else '\ufffd' :: charsOfUnits (l :: rest')
      | [] => ['\ufffd']
    else charOrReplacement h :: charsOfUnits rest

def decodeUtf32 (bigEndian : Bool) (position : Nat) : List UInt8 → Except EncodingError (List Char)
  | [] => .ok []
  | a :: b :: c :: d :: rest =>
    let n :=
      if bigEndian then ((a.toNat * 256 + b.toNat) * 256 + c.toNat) * 256 + d.toNat
      else ((d.toNat * 256 + c.toNat) * 256 + b.toNat) * 256 + a.toNat
    if 0x110000 ≤ n then .error ⟨.utf32 bigEndian, .outOfRange, position, a, 4⟩
    else (decodeUtf32 bigEndian (position + 4) rest).map (charOrReplacement n :: ·)
  | a :: rest => .error ⟨.utf32 bigEndian, .truncated, position, a, rest.length + 1⟩

/-- The text of some bytes in the encoding that they show. -/
def decode (bytes : List UInt8) : Except EncodingError String :=
  let (encoding, skipped, position) := Encoding.detect bytes
  let body := bytes.drop skipped
  let chars := match encoding with
    | .utf8 => decodeUtf8 position body
    | .utf16 big => (units16 big position body).map charsOfUnits
    | .utf32 big => decodeUtf32 big position body
  chars.map String.ofList

end GraphWorkbench.Text

import GraphWorkbench.Json.Literal
/-!
The parts of a web address that tell whether it is one: its scheme and its authority. Brackets in an
authority must pair up around an address of the sixth version, and no character may turn into a
delimiter when the authority is brought to compatibility form.
-/
namespace GraphWorkbench.Url

/-- Why a text cannot be split into the parts of an address. -/
inductive Defect where
  | unpairedBracket
  | futureAddress
  | noAddress (host : String)
  | oldAddressInBrackets
  | hiddenDelimiter (authority : String)
deriving DecidableEq

def Defect.message : Defect → String
  | .unpairedBracket => "Invalid IPv6 URL"
  | .futureAddress => "IPvFuture address is invalid"
  | .noAddress host =>
    s!"{(Json.str host).literal} does not appear to be an IPv4 or IPv6 address"
  | .oldAddressInBrackets => "An IPv4 address cannot be in brackets"
  | .hiddenDelimiter authority =>
    s!"netloc '{authority}' contains invalid characters under NFKC normalization"

/-- The parts of a list between the occurrences of a separator. -/
def splitAt (sep : Char) : List Char → List (List Char)
  | [] => [[]]
  | c :: rest =>
    if c = sep then [] :: splitAt sep rest
    else match splitAt sep rest with
      | part :: parts => (c :: part) :: parts
      | [] => [[c]]

/-- Four decimal numbers up to 255, without leading zeros. -/
def isOldAddress (cs : List Char) : Bool :=
  let parts := splitAt '.' cs
  parts.length == 4 && parts.all fun p =>
    !p.isEmpty && p.length ≤ 3 && p.all Char.isDigit && (p.length == 1 || p.head? != some '0') &&
      p.foldl (fun n c => n * 10 + (c.toNat - 48)) 0 ≤ 255

def isHexDigit (c : Char) : Bool :=
  c.isDigit || ('a' ≤ c && c ≤ 'f') || ('A' ≤ c && c ≤ 'F')

/-- One of the eight groups of an address: one to four hexadecimal digits. -/
def isGroup (p : List Char) : Bool := !p.isEmpty && p.length ≤ 4 && p.all isHexDigit

/-- The groups of an address, the last two of which may be written as an old address. -/
def addressGroups? (cs : List Char) : Option (List (List Char)) :=
  let parts := splitAt ':' cs
  if parts.length < 3 then none
  else
    let last := parts.getLast?.getD []
    if last.contains '.' then
      if isOldAddress last then some (parts.dropLast ++ [['0'], ['0']]) else none
    else some parts

/-- An address of eight groups, or of fewer with one gap; an end of the address may be empty only
next to the gap. -/
def isNewAddress (cs : List Char) : Bool :=
  let (address, zone) := (cs.takeWhile (· != '%'), cs.dropWhile (· != '%'))
  let zoneFine := zone.isEmpty || (zone.length > 1 && !(zone.drop 1).contains '%')
  match addressGroups? address with
  | none => false
  | some parts =>
    let n := parts.length
    let gaps := (List.range n).filter fun i =>
      0 < i && i + 1 < n && ((parts[i]?.map List.isEmpty).getD false)
    zoneFine && n ≤ 9 &&
      match gaps with
      | [] => n == 8 && parts.all isGroup
      | [gap] =>
        let first := parts.take gap
        let second := parts.drop (gap + 1)
        let first := if first = [[]] then [] else first
        let second := if second = [[]] then [] else second
        first.all isGroup && second.all isGroup && first.length + second.length < 8
      | _ => false

/-- Checks the host between brackets. -/
def checkBracketed (host : List Char) : Except Defect Unit :=
  match host with
  | 'v' :: rest =>
    let hex := rest.takeWhile isHexDigit
    match rest.dropWhile isHexDigit with
    | '.' :: _ :: _ => if hex.isEmpty then .error .futureAddress else .ok ()
    | _ => .error .futureAddress
  | _ =>
    if isOldAddress host then .error .oldAddressInBrackets
    else if isNewAddress host then .ok ()
    else .error (.noAddress (String.ofList host))

/-- The characters whose compatibility form holds one of the delimiters of an address. -/
def hidingCodes : List Nat :=
  [0x2047, 0x2048, 0x2049, 0x2100, 0x2101, 0x2105, 0x2106, 0x2a74, 0xfe13, 0xfe16, 0xfe55, 0xfe56,
    0xfe5f, 0xfe6b, 0xff03, 0xff0f, 0xff1a, 0xff1f, 0xff20]

def checkAuthority (authority : List Char) : Except Defect Unit := do
  let opened := authority.contains '['
  let closed := authority.contains ']'
  if opened != closed then throw .unpairedBracket
  if opened then
    checkBracketed (((authority.dropWhile (· != '[')).drop 1).takeWhile (· != ']'))

def isSchemeChar (c : Char) : Bool := c.isAlphanum || c == '+' || c == '-' || c == '.'

/-- The scheme, in small letters, and the authority of an address; both may be missing. -/
structure Parts where
  scheme : String
  authority : String
deriving DecidableEq

def split (s : String) : Except Defect Parts := do
  let cs := (s.toList.dropWhile fun c => c.toNat ≤ 0x20).filter fun c =>
    c != '\t' && c != '\r' && c != '\n'
  let before := cs.takeWhile (· != ':')
  let hasScheme := before.length < cs.length && (before.head?.map Char.isAlpha).getD false &&
    before.all isSchemeChar
  let scheme := if hasScheme then before.map Char.toLower else []
  let rest := if hasScheme then cs.drop (before.length + 1) else cs
  match rest with
  | '/' :: '/' :: rest =>
    let authority := rest.takeWhile fun c => c != '/' && c != '?' && c != '#'
    checkAuthority authority
    if authority.any fun c => hidingCodes.contains c.toNat then
      throw (.hiddenDelimiter (String.ofList authority))
    return ⟨String.ofList scheme, String.ofList authority⟩
  | _ => return ⟨String.ofList scheme, ""⟩

/-- Whether a text is an address on the web: its scheme is one of the two and it names a host. -/
def isWeb (s : String) : Except Defect Bool := do
  let parts ← split s
  return (parts.scheme == "http" || parts.scheme == "https") && parts.authority != ""

end GraphWorkbench.Url

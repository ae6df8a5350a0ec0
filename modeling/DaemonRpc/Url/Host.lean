import DaemonRpc.Url.Form

/-!
# Hosts

A host is a name, an IPv4 address or an IPv6 address; it is kept in its written form. A name that
ends in a number must be an IPv4 address, whose parts may be octal or hexadecimal and may each
stand for several octets. An IPv6 address is written with its longest run of zeros left out.

Names are read without the tables of internationalised names. A name with a character beyond ASCII
is refused here, where a reader with these tables keeps its ASCII form; and a label that starts with
`xn--` is kept as it is, where such a reader refuses one that encodes nothing. What is proved about
URLs, requests and configurations is about them as they are read here: of names beyond ASCII it says
nothing, and for a malformed `xn--` label it tells of a URL that such a reader would refuse.
-/

namespace DaemonRpc.Url

/-- Why a text is no URL. -/
inductive ParseError where
  | emptyHost
  | invalidPortNumber
  | invalidIpv4
  | invalidIpv6
  /-- The name holds a character that no name of a special URL may hold. -/
  | invalidName
  /-- The name holds a character that no host may hold. -/
  | invalidNameCharacter
  | relativeWithoutBase
  /-- The base has no path to which a relative reference could be joined. -/
  | relativeToRootless
  deriving DecidableEq, Repr

/-- The wording of a fault. -/
def ParseError.message : ParseError → String
  | .emptyHost => "empty host"
  | .invalidPortNumber => "invalid port number"
  | .invalidIpv4 => "invalid IPv4 address"
  | .invalidIpv6 => "invalid IPv6 address"
  | .invalidName => "invalid international domain name"
  | .invalidNameCharacter => "invalid domain character"
  | .relativeWithoutBase => "relative URL without a base"
  | .relativeToRootless => "relative URL with a cannot-be-a-base base"

/-- The number of digits in a base; `none` without digits or with another character. -/
def numberIn (base : Nat) (digits : List Char) : Option Nat :=
  if digits.isEmpty then none
  else digits.foldlM (fun acc c => ((hexValue? c).filter (· < base)).map (acc * base + ·)) 0

/-- Join texts with a separator between them. -/
def joinWith (separator : Char) : List (List Char) → List Char
  | [] => []
  | [piece] => piece
  | piece :: more => piece ++ separator :: joinWith separator more

/-! ## IPv4 -/

/-- The number that a part of an IPv4 address denotes. -/
def ipv4Number (part : List Char) : Option Nat :=
  match part with
  | [] => none
  -- A mark for hexadecimal without digits is zero.
  | ['0', 'x'] | ['0', 'X'] => some 0
  | '0' :: 'x' :: digits | '0' :: 'X' :: digits => numberIn 16 digits
  | '0' :: first :: digits => numberIn 8 (first :: digits)
  | digits => numberIn 10 digits

/-- The parts of a name between dots, without an empty last one. -/
def nameParts (name : List Char) : List (List Char) :=
  let parts := Form.pieces (· == '.') name
  if parts.getLast? = some [] then parts.dropLast else parts

/-- The last part of the name is a number. -/
def endsInNumber (name : List Char) : Bool :=
  match (nameParts name).getLast? with
  | none => false
  | some part => (!part.isEmpty && part.all Text.isDigit) || (ipv4Number part).isSome

/-- The number of an IPv4 address. -/
def ipv4Address? (name : List Char) : Option Nat := do
  let parts := nameParts name
  if 4 < parts.length then none
  let numbers ← parts.mapM ipv4Number
  let last ← numbers.getLast?
  let leading := numbers.dropLast
  -- The last part stands for all the bytes that the leading ones leave.
  let room := Nat.pow 256 (4 - leading.length)
  if room ≤ last ∨ leading.any (255 < ·) then none
  return leading.foldl (fun acc n => acc * 256 + n) 0 * room + last

/-- The four decimal parts of an IPv4 address. -/
def writeIpv4 (address : Nat) : List Char :=
  joinWith '.' ([3, 2, 1, 0].map fun i => Nat.toDigits 10 (address / Nat.pow 256 i % 256))

/-! ## IPv6 -/

/-- A group of an IPv6 address: one to four hexadecimal digits. -/
def ipv6Group? (digits : List Char) : Option Nat :=
  if 4 < digits.length then none else numberIn 16 digits

/-- A part of a dotted address: a number up to 255 without leading zeros. -/
def dottedPart? (digits : List Char) : Option Nat :=
  match digits with
  | '0' :: _ :: _ => none
  | _ => (numberIn 10 digits).filter (· ≤ 255)

/-- The two groups of a dotted address. -/
def dottedGroups? (text : List Char) : Option (List Nat) := do
  match ← (Form.pieces (· == '.') text).mapM dottedPart? with
  | [a, b, c, d] => some [a * 256 + b, c * 256 + d]
  | _ => none

/-- Groups between colons, the last of which may be a dotted address if `dotted` allows it. -/
def ipv6Groups? (dotted : Bool) : List (List Char) → Option (List Nat)
  | [] => some []
  | [last] =>
    if dotted && last.contains '.' then dottedGroups? last else (ipv6Group? last).map ([·])
  | group :: more => do
    let first ← ipv6Group? group
    let rest ← ipv6Groups? dotted more
    return first :: rest

/-- The groups of a text that may be empty. -/
def ipv6Side? (dotted : Bool) (text : List Char) : Option (List Nat) :=
  if text.isEmpty then some [] else ipv6Groups? dotted (Form.pieces (· == ':') text)

/-- The texts before and after the first double colon. -/
def splitDoubleColon : List Char → Option (List Char × List Char)
  | ':' :: ':' :: rest => some ([], rest)
  | c :: rest => (splitDoubleColon rest).map fun (before, after) => (c :: before, after)
  | [] => none

/-- The eight groups of an IPv6 address. -/
def ipv6Address? (text : List Char) : Option (List Nat) :=
  match splitDoubleColon text with
  | none => (ipv6Side? true text).filter (·.length == 8)
  | some (before, after) => do
    let left ← ipv6Side? false before
    let right ← ipv6Side? true after
    -- The double colon stands for at least one group.
    let given := left.length + right.length
    if 7 < given then none else some (left ++ List.replicate (8 - given) 0 ++ right)

/-- The length of the run of zeros at the start. -/
def zeroRun (groups : List Nat) : Nat := (groups.takeWhile (· == 0)).length

/-- The start and the length of the first longest run of zeros. -/
def longestZeroRun (groups : List Nat) : Nat × Nat :=
  (List.range groups.length).foldl
    (fun best i =>
      let run := zeroRun (groups.drop i)
      -- Of two equally long runs the first one stays.
      if best.2 < run then (i, run) else best)
    (0, 0)

/-- The groups in hexadecimal, without the longest run of zeros if it has at least two. -/
def writeIpv6 (groups : List Nat) : List Char :=
  let write := fun l : List Nat => joinWith ':' (l.map (Nat.toDigits 16))
  let (start, run) := longestZeroRun groups
  if run < 2 then write groups
  else write (groups.take start) ++ ':' :: ':' :: write (groups.drop (start + run))

/-! ## Hosts in text -/

/-- A host in square brackets. -/
def bracketedHost (text : List Char) : Except ParseError (List Char) :=
  match text.getLast?, ipv6Address? (text.drop 1).dropLast with
  | some ']', some groups => .ok ('[' :: writeIpv6 groups ++ [']'])
  | _, _ => .error .invalidIpv6

/-- The character may not stand in any host. -/
def isForbiddenInHost (c : Char) : Bool :=
  c == '\x00' || c == '\t' || c == '\n' || c == '\r' || c == ' ' || c == '#' || c == '/' ||
    c == ':' || c == '<' || c == '>' || c == '?' || c == '@' || c == '[' || c == '\\' ||
    c == ']' || c == '^' || c == '|'

/-- The character may not stand in the host of a special URL. Characters beyond ASCII would need the
tables of internationalised names and count as forbidden, and nothing is asked of `xn--` labels. -/
def isForbiddenInName (c : Char) : Bool :=
  isForbiddenInHost c || c.toNat < 0x20 || 0x7E < c.toNat || c == '%'

/-- The written form of the host of a special URL. -/
def readHost (text : List Char) : Except ParseError (List Char) :=
  if text.head? = some '[' then bracketedHost text
  else
    match Utf8.decode? (percentDecode (Utf8.encode text)) with
    | none => .error .invalidName
    | some name =>
      -- Case does not count in names, and escapes are resolved before anything is checked.
      let name := name.map Text.lowerAscii
      if name.any isForbiddenInName then .error .invalidName
      else if name.isEmpty then .error .emptyHost
      else if endsInNumber name then
        match ipv4Address? name with
        | some address => .ok (writeIpv4 address)
        | none => .error .invalidIpv4
      else .ok name

/-- The written form of the host of another URL. -/
def readPlainHost (text : List Char) : Except ParseError (List Char) :=
  if text.head? = some '[' then bracketedHost text
  else if text.any isForbiddenInHost then .error .invalidNameCharacter
  else .ok (percentEncode controlSet text)

end DaemonRpc.Url

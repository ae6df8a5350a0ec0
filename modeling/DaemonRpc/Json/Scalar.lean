import DaemonRpc.Json.Cursor
import DaemonRpc.Text.Utf8

/-!
# Reading JSON numbers, strings and literals

A whole number that fits 64 bits stays exact. Any other number keeps as many leading digits as fit
64 bits and is scaled by its power of ten in binary64 arithmetic. A string may hold any octets that
are UTF-8, except control characters, with escapes; escapes for UTF-16 surrogates come in pairs.
-/

namespace DaemonRpc.Json

/-- Read the rest of a literal after its first letter. -/
def readIdent : List Char → Reader Unit
  | [], c => .ok ((), c)
  | expected :: rest, c =>
    match c.peek? with
    | none => .error (c.failure .eofInValue)
    | some b =>
      if b = octet expected then readIdent rest c.advance
      else .error (c.advance.failure .expectedIdent)

/-! ## Numbers -/

/-- Leading digits of a number that fit 64 bits, and the power of ten they are scaled by. -/
structure Scaled where
  digits : Nat
  exponent : Int
  deriving Repr

/-- One digit more fits 64 bits. -/
def Scaled.fits (s : Scaled) (digit : Nat) : Bool := s.digits * 10 + digit < UInt64.size

/-- Add the digits before the point: after the first one that does not fit, each counts only as a
power of ten. The result also tells whether all fitted. -/
def Scaled.addWhole (s : Scaled) : List Nat → Scaled × Bool
  | [] => (s, true)
  | d :: rest =>
    if s.fits d then addWhole ⟨s.digits * 10 + d, s.exponent⟩ rest
    else (⟨s.digits, s.exponent + (rest.length + 1)⟩, false)

/-- Add the digits after the point, up to the first one that does not fit. -/
def Scaled.addFraction (s : Scaled) : List Nat → Scaled
  | [] => s
  | d :: rest =>
    if s.fits d then addFraction ⟨s.digits * 10 + d, s.exponent - 1⟩ rest else s

/-- The greatest power of ten that is a finite binary64 number. -/
def maxPower : Nat := 308

/-- The number nearest to a power of ten. -/
def powerOfTen (power : Nat) : Option Binary64 := Binary64.ofNat (Nat.pow 10 power)

/-- Divide by a power of ten. -/
def divideByPower (x : Binary64) (power : Nat) : Option Binary64 :=
  (powerOfTen power).bind x.div

/-- Divide by a power of ten in steps of at most `maxPower` powers. -/
def scaleDown (x : Binary64) (power : Nat) : Option Binary64 :=
  if power ≤ maxPower then divideByPower x power
  else if x.significand = 0 then some x
  else (divideByPower x maxPower).bind fun y => scaleDown y (power - maxPower)
termination_by power
decreasing_by
  have : 0 < maxPower := by decide
  omega

/-- The binary64 number of scaled digits; `none` if it is infinite. -/
def Scaled.toBinary64 (s : Scaled) : Option Binary64 :=
  (Binary64.ofNat s.digits).bind fun x =>
    -- A positive power is multiplied in one step, since beyond `maxPower` nothing is finite.
    if s.exponent < 0 then scaleDown x (-s.exponent).toNat
    else if s.exponent ≤ maxPower then (powerOfTen s.exponent.toNat).bind x.mul
    else if x.significand = 0 then some x
    else none

/-- The floating number of scaled digits. -/
def finishFloat (negative : Bool) (s : Scaled) (c : Cursor) : Except Failure (Number × Cursor) :=
  match s.toBinary64 with
  | some x => .ok (.float negative x, c)
  | none => .error (c.failure .numberOutOfRange)

/-- The greatest exponent that is read in full. -/
def exponentLimit : Nat := Nat.pow 2 31

/-- Read the digits of an exponent: the value, or the place of the first digit that passes the
limit. -/
def readExponentDigits : Nat → Nat → Cursor → Except Cursor (Nat × Cursor)
  | 0, value, c => .ok (value, c)
  | fuel + 1, value, c =>
    match c.peek?.bind Cursor.digit? with
    | none => .ok (value, c)
    | some d =>
      if value * 10 + d < exponentLimit then readExponentDigits fuel (value * 10 + d) c.advance
      else .error c.advance

/-- Read an exponent after its `e` and finish the number. -/
def readExponent (negative : Bool) (s : Scaled) (c : Cursor) :
    Except Failure (Number × Cursor) := do
  let down := c.at? '-'
  let c := if c.at? '+' || down then c.advance else c
  if c.rest.isEmpty then throw (c.failure .eofInValue)
  if !c.atDigit then throw (c.advance.failure .invalidNumber)
  match readExponentDigits c.rest.length 0 c with
  | .ok (value, c) =>
    let exponent := if down then s.exponent - value else s.exponent + value
    finishFloat negative ⟨s.digits, exponent⟩ c
  -- Beyond the limit only zero and numbers next to zero are left.
  | .error c =>
    if s.digits ≠ 0 ∧ !down then throw (c.failure .numberOutOfRange)
    else return (.float negative Binary64.zero, c.takeDigits.2)

/-- Read a fraction after its point, and finish the number. -/
def readFraction (negative : Bool) (s : Scaled) (c : Cursor) :
    Except Failure (Number × Cursor) := do
  let (digits, after) := c.takeDigits
  if digits.isEmpty then
    throw (c.failureAhead (if c.rest.isEmpty then .eofInValue else .invalidNumber))
  let s := s.addFraction digits
  if after.atExponent then readExponent negative s after.advance
  else finishFloat negative s after

/-- A whole number without fraction and exponent; zero with a minus sign is a floating number. -/
def finishWhole (negative : Bool) (digits : Nat) (c : Cursor) :
    Except Failure (Number × Cursor) :=
  if !negative then .ok (.integer digits, c)
  else if digits ≠ 0 ∧ digits ≤ Nat.pow 2 63 then .ok (.integer (-(digits : Int)), c)
  else finishFloat true ⟨digits, 0⟩ c

/-- Read a number after its sign. -/
def readNumber (negative : Bool) : Reader Number := fun c => do
  match c.peek? with
  | none => throw (c.failure .eofInValue)
  | some b =>
    if !c.atDigit then throw (c.advance.failure .invalidNumber)
    -- Nothing but a fraction or an exponent may follow a leading zero.
    if b = octet '0' ∧ c.advance.atDigit then throw (c.advance.failureAhead .invalidNumber)
    let (digits, after) := c.takeDigits
    let (s, fitted) := Scaled.addWhole ⟨0, 0⟩ digits
    if after.at? '.' then readFraction negative s after.advance
    else if after.atExponent then readExponent negative s after.advance
    else if fitted then finishWhole negative s.digits after
    else finishFloat negative s after

/-! ## Strings -/

/-- The value of a hexadecimal digit. -/
def hexValue? (b : UInt8) : Option Nat :=
  if octet '0' ≤ b ∧ b ≤ octet '9' then some (b.toNat - '0'.toNat)
  else if octet 'a' ≤ b ∧ b ≤ octet 'f' then some (b.toNat - 'a'.toNat + 10)
  else if octet 'A' ≤ b ∧ b ≤ octet 'F' then some (b.toNat - 'A'.toNat + 10)
  else none

/-- Read four hexadecimal digits. -/
def readHex : Reader Nat := fun c =>
  match c.rest with
  | a :: b :: d :: e :: _ =>
    let after := c.advance.advance.advance.advance
    match hexValue? a, hexValue? b, hexValue? d, hexValue? e with
    | some a, some b, some d, some e => .ok (((a * 16 + b) * 16 + d) * 16 + e, after)
    | _, _, _, _ => .error (after.failure .invalidEscape)
  | _ => .error ((c.skipWhile fun _ => true).failure .eofInString)

/-- Go past the octet `expected` of a surrogate pair. -/
def readPairOctet (expected : Char) : Reader Unit := fun c =>
  match c.peek? with
  | none => .error (c.failure .eofInString)
  | some b =>
    if b = octet expected then .ok ((), c.advance)
    else .error (c.advance.failure .unfinishedSurrogatePair)

/-- Read the rest of an escape by number: one code unit, or two that form a pair. -/
def readUnicodeEscape : Reader (List UInt8) := fun c => do
  let (first, c) ← readHex c
  -- The second half of a pair cannot come first.
  if 0xDC00 ≤ first ∧ first ≤ 0xDFFF then throw (c.failure .loneSurrogate)
  if first < 0xD800 ∨ 0xDBFF < first then
    return (String.utf8EncodeChar (Char.ofNat first), c)
  -- The first half of a pair must be followed by an escape for the second half.
  let ((), c) ← readPairOctet '\\' c
  let ((), c) ← readPairOctet 'u' c
  let (second, c) ← readHex c
  if second < 0xDC00 ∨ 0xDFFF < second then throw (c.failure .loneSurrogate)
  let code := (first - 0xD800) * 0x400 + (second - 0xDC00) + 0x10000
  return (String.utf8EncodeChar (Char.ofNat code), c)

/-- The octet that a one-letter escape stands for. -/
def simpleEscape? (b : UInt8) : Option UInt8 :=
  if b = octet '"' ∨ b = octet '\\' ∨ b = octet '/' then some b
  else if b = octet 'b' then some 0x08
  else if b = octet 'f' then some 0x0C
  else if b = octet 'n' then some 0x0A
  else if b = octet 'r' then some 0x0D
  else if b = octet 't' then some 0x09
  else none

/-- Read an escape after its backslash. -/
def readEscape : Reader (List UInt8) := fun c =>
  match c.peek? with
  | none => .error (c.failure .eofInString)
  | some b =>
    if b = octet 'u' then readUnicodeEscape c.advance
    else
      match simpleEscape? b with
      | some plain => .ok ([plain], c.advance)
      | none => .error (c.advance.failure .invalidEscape)

/-- Read the octets of a string up to its closing quotation mark, which stays. `taken` holds the
octets read so far, the last one first; `fuel` is at least the number of octets left. -/
def readStringOctets : Nat → List UInt8 → Reader (List UInt8)
  | 0, _, c => .error (c.failure .eofInString)
  | fuel + 1, taken, c =>
    match c.peek? with
    | none => .error (c.failure .eofInString)
    | some b =>
      if b = octet '"' then .ok (taken.reverse, c)
      else if b = octet '\\' then
        match readEscape c.advance with
        | .error e => .error e
        | .ok (octets, c) => readStringOctets fuel (octets.reverse ++ taken) c
      else if b < 0x20 then .error (c.advance.failure .controlCharacter)
      -- Octets beyond ASCII are checked together when the string is complete.
      else readStringOctets fuel (b :: taken) c.advance

/-- Read a string after its opening quotation mark. -/
def readString : Reader String := fun c => do
  let (octets, c) ← readStringOctets (c.rest.length + 1) [] c
  match Utf8.decode? octets with
  | some text => return (String.ofList text, c.advance)
  | none => throw (c.failure .invalidCodePoint)

end DaemonRpc.Json

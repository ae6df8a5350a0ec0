import DaemonRpc.Json.Failure

/-!
# A place in JSON text

What is left of the octets of a text, with the line and the column reached. A reader takes a cursor
and returns a result with the cursor after it.
-/

namespace DaemonRpc.Json

/-- What is left to read and where that is. -/
structure Cursor where
  /-- The octets not read yet. -/
  rest : List UInt8
  /-- The place reached. -/
  place : Position := ⟨1, 0⟩
  deriving Repr

/-- A reader of one item. -/
abbrev Reader (α : Type) := Cursor → Except Failure (α × Cursor)

/-- The code of an ASCII character. -/
def octet (c : Char) : UInt8 := UInt8.ofNat c.toNat

namespace Cursor

/-- The place after one more octet. -/
def placeAfter (b : UInt8) (p : Position) : Position :=
  if b = octet '\n' then ⟨p.line + 1, 0⟩ else ⟨p.line, p.column + 1⟩

/-- The next octet. -/
def peek? (c : Cursor) : Option UInt8 := c.rest.head?

/-- Go past one octet, if there is one. -/
def advance (c : Cursor) : Cursor :=
  match c.rest with
  | [] => c
  | b :: rest => ⟨rest, placeAfter b c.place⟩

/-- A failure at the place reached. -/
def failure (c : Cursor) (cause : Cause) : Failure := ⟨cause, some c.place⟩

/-- A failure at the next octet, or at the end of the text. -/
def failureAhead (c : Cursor) (cause : Cause) : Failure := ⟨cause, some c.advance.place⟩

/-- An octet that separates items of a text. -/
def isSeparator (b : UInt8) : Bool :=
  b == octet ' ' || b == octet '\n' || b == octet '\t' || b == octet '\r'

/-- Go past the octets that satisfy `p`. -/
def skipWhile (p : UInt8 → Bool) (c : Cursor) : Cursor :=
  let taken := c.rest.takeWhile p
  ⟨c.rest.dropWhile p, taken.foldl (fun place b => placeAfter b place) c.place⟩

/-- Go past the blanks before the next item. -/
def skipBlanks (c : Cursor) : Cursor := c.skipWhile isSeparator

/-- The value of an octet that is a decimal digit. -/
def digit? (b : UInt8) : Option Nat :=
  if octet '0' ≤ b ∧ b ≤ octet '9' then some (b.toNat - '0'.toNat) else none

/-- The next octet is a decimal digit. -/
def atDigit (c : Cursor) : Bool := (c.peek?.bind digit?).isSome

/-- The digits up to the next octet that is none, and the place after them. -/
def takeDigits (c : Cursor) : List Nat × Cursor :=
  ((c.rest.takeWhile fun b => (digit? b).isSome).filterMap digit?,
    c.skipWhile fun b => (digit? b).isSome)

/-- The next octet is this character. -/
def at? (c : Cursor) (char : Char) : Bool := c.peek? == some (octet char)

/-- The next octet is an `e` in either case. -/
def atExponent (c : Cursor) : Bool := c.at? 'e' || c.at? 'E'

/-- Going past an octet shortens what is left. -/
theorem length_advance (c : Cursor) : c.advance.rest.length = c.rest.length - 1 := by
  unfold advance
  split <;> simp_all

end Cursor

end DaemonRpc.Json

/-!
# Blank characters and trimming

The characters with the Unicode property `White_Space`, and the removal of runs of them from the
ends of a text. Trimming is stated on lists of characters and lifted to `String`.
-/

namespace DaemonRpc.Text

/-- The character has the Unicode property `White_Space`. -/
def isBlank (c : Char) : Bool :=
  let n := c.toNat
  -- Tab to carriage return, and the blanks of several widths from U+2000, stand together.
  (0x09 ≤ n && n ≤ 0x0D) || n == 0x20 || n == 0x85 || n == 0xA0 || n == 0x1680 ||
    (0x2000 ≤ n && n ≤ 0x200A) || n == 0x2028 || n == 0x2029 || n == 0x202F || n == 0x205F ||
    n == 0x3000

/-- Remove the longest suffix whose elements all satisfy `p`. -/
def dropEndWhile {α : Type} (p : α → Bool) (l : List α) : List α :=
  (l.reverse.dropWhile p).reverse

/-- Remove the blanks at both ends of a list of characters. -/
def trimChars (l : List Char) : List Char :=
  dropEndWhile isBlank (l.dropWhile isBlank)

/-- Remove the blanks at both ends of a text. -/
def trim (s : String) : String :=
  String.ofList (trimChars s.toList)

/-- Remove the blanks at the start of a text. -/
def trimStart (s : String) : String :=
  String.ofList (s.toList.dropWhile isBlank)

/-- `needle` occurs in `text` as a run of consecutive elements. -/
def occursIn (needle : List Char) : List Char → Bool
  | [] => needle.isEmpty
  | c :: rest => needle.isPrefixOf (c :: rest) || occursIn needle rest

/-- `needle` occurs in `text`. -/
def contains (text needle : String) : Bool :=
  occursIn needle.toList text.toList

/-- An upper-case ASCII letter becomes its lower-case partner; other characters stay. -/
def lowerAscii (c : Char) : Char :=
  if 'A' ≤ c ∧ c ≤ 'Z' then Char.ofNat (c.toNat + 32) else c

/-- A lower-case ASCII letter becomes its upper-case partner; other characters stay. -/
def upperAscii (c : Char) : Char :=
  if 'a' ≤ c ∧ c ≤ 'z' then Char.ofNat (c.toNat - 32) else c

/-- The value of an ASCII decimal digit. -/
def digitValue (c : Char) : Option Nat :=
  if '0' ≤ c ∧ c ≤ '9' then some (c.toNat - '0'.toNat) else none

/-- The character is an ASCII decimal digit. -/
def isDigit (c : Char) : Bool :=
  decide ('0' ≤ c ∧ c ≤ '9')

/-- The number that a run of ASCII decimal digits denotes, `none` if another character occurs. -/
def decimalValue (digits : List Char) : Option Nat :=
  digits.foldlM (fun acc c => (digitValue c).map (acc * 10 + ·)) 0

/-- The number below `limit` that an optional plus sign and at least one ASCII digit denote. -/
def natBelow (limit : Nat) (text : List Char) : Option Nat :=
  -- Only one sign is taken; a second one is no digit.
  let digits := match text with
    | '+' :: rest => rest
    | other => other
  if digits.isEmpty then none else (decimalValue digits).filter (· < limit)

/-- A blank of ASCII as core knows it is a blank. -/
theorem isBlank_of_isWhitespace {c : Char} (h : c.isWhitespace = true) : isBlank c = true := by
  simp only [Char.isWhitespace, Bool.or_eq_true, decide_eq_true_eq] at h
  rcases h with ((h | h) | h) | h <;> subst h <;> decide

end DaemonRpc.Text

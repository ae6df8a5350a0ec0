import DaemonRpc.Json.Value
import DaemonRpc.Number.Shortest

/-!
# Compact JSON text

A value is written without blanks, the members of an object in the order of their keys. A string
escapes the quotation mark, the backslash and the control characters below U+0020. A floating
number is written with the fewest digits that read back: positionally while its point stands at
most sixteen digits to the right and four zeros to the left of the digits, else with an exponent.
-/

namespace DaemonRpc

/-- Digits of a positional number whose point stands after `point` digits. -/
def Decimal.positional (digits : List Char) (point : Int) : List Char :=
  let count : Int := digits.length
  -- The point stands after all digits, among them, or before them.
  if count ≤ point then digits ++ List.replicate (point - count).toNat '0' ++ ['.', '0']
  else if 0 < point then digits.take point.toNat ++ '.' :: digits.drop point.toNat
  else '0' :: '.' :: List.replicate (-point).toNat '0' ++ digits

/-- An exponent with its sign. -/
def Decimal.signedExponent (n : Int) : List Char :=
  if n < 0 then (toString n).toList else '+' :: (toString n).toList

/-- Digits of a number with an exponent, one digit before the point. -/
def Decimal.scientific (digits : List Char) (point : Int) : List Char :=
  let mantissa := match digits with
    | first :: second :: rest => first :: '.' :: second :: rest
    | short => short
  mantissa ++ 'e' :: Decimal.signedExponent (point - 1)

/-- The text of a non-negative decimal. -/
def Decimal.text (d : Decimal) : List Char :=
  let digits := Nat.toDigits 10 d.digits
  -- Where the point stands, counted from the first digit.
  let point := (digits.length : Int) + d.exponent
  if d.digits = 0 then ['0', '.', '0']
  else if -5 < point ∧ point ≤ 16 then Decimal.positional digits point
  else Decimal.scientific digits point

namespace Json

/-- The lower-case hexadecimal digit of a number below sixteen. -/
def hexDigit (n : Nat) : Char := Nat.digitChar n

/-- The written form of one character of a string. -/
def escapeChar (c : Char) : List Char :=
  if c = '"' then ['\\', '"']
  else if c = '\\' then ['\\', '\\']
  else if c = '\x08' then ['\\', 'b']
  else if c = '\x0c' then ['\\', 'f']
  else if c = '\n' then ['\\', 'n']
  else if c = '\r' then ['\\', 'r']
  else if c = '\t' then ['\\', 't']
  else if c.toNat < 0x20 then
    ['\\', 'u', '0', '0', hexDigit (c.toNat / 16), hexDigit (c.toNat % 16)]
  else [c]

/-- A string with its quotation marks. -/
def writeString (s : String) : List Char :=
  '"' :: s.toList.flatMap escapeChar ++ ['"']

/-- The text of a floating number. -/
def writeFloat (negative : Bool) (magnitude : Binary64) : List Char :=
  (if negative then ['-'] else []) ++ magnitude.shortest.text

/-- The text of a number. -/
def Number.write : Number → List Char
  | .integer i => (toString i).toList
  | .float negative magnitude => writeFloat negative magnitude

mutual

/-- The text of a value. -/
def Value.write : Value → List Char
  | .null => "null".toList
  | .bool true => "true".toList
  | .bool false => "false".toList
  | .number n => n.write
  | .string s => writeString s
  | .array elements => '[' :: writeElements elements ++ [']']
  | .object members => '\x7b' :: writeMembers members ++ ['\x7d']

/-- The texts of values, separated by commas. -/
def writeElements : List Value → List Char
  | [] => []
  | [v] => v.write
  | v :: w :: rest => v.write ++ ',' :: writeElements (w :: rest)

/-- The texts of members, separated by commas. -/
def writeMembers : List (String × Value) → List Char
  | [] => []
  | [(k, v)] => writeString k ++ ':' :: v.write
  | (k, v) :: m :: rest => writeString k ++ ':' :: v.write ++ ',' :: writeMembers (m :: rest)

end

/-- The compact text of a value. -/
def Value.render (v : Value) : String := String.ofList v.write

end Json

end DaemonRpc

import DaemonRpc.Url.Percent

/-!
# Form encoding of pairs

`application/x-www-form-urlencoded`: pairs are separated by ampersands, a key and its value by the
first equals sign. Letters, digits and four marks stand for themselves, a blank is a plus sign, and
every other octet is percent-encoded. Reading skips empty pairs and takes malformed UTF-8 as
replacement characters.
-/

namespace DaemonRpc.Url.Form

/-- A key and its value. -/
abbrev Pair := String × String

/-- The octet stands for itself. -/
def isPlain (b : UInt8) : Bool :=
  (0x30 ≤ b && b ≤ 0x39) || (0x41 ≤ b && b ≤ 0x5A) || (0x61 ≤ b && b ≤ 0x7A) ||
    b == 0x2A || b == 0x2D || b == 0x2E || b == 0x5F

/-- The written form of one octet. -/
def encodeOctet (b : UInt8) : List Char :=
  if b = 0x20 then ['+'] else if isPlain b then [Char.ofNat b.toNat] else percentOctet b

/-- The written form of a key or a value. -/
def encodeText (s : String) : List Char :=
  (Utf8.ofString s).flatMap encodeOctet

/-- The written form of a pair. -/
def encodePair (p : Pair) : List Char :=
  encodeText p.1 ++ '=' :: encodeText p.2

/-- The written form of pairs. -/
def encode : List Pair → List Char
  | [] => []
  | [p] => encodePair p
  | p :: q :: rest => encodePair p ++ '&' :: encode (q :: rest)

/-- A plus sign is a blank. -/
def plusToBlank (b : UInt8) : UInt8 := if b = 0x2B then 0x20 else b

/-- The key or value of a written form. -/
def decodeText (octets : List UInt8) : String :=
  Utf8.toStringLossy (percentDecode (octets.map plusToBlank))

/-- The pair of a written form. -/
def decodePair (octets : List UInt8) : Pair :=
  -- Without an equals sign all is key and the value is empty.
  let key := octets.takeWhile (· ≠ 0x3D)
  let value := (octets.dropWhile (· ≠ 0x3D)).drop 1
  (decodeText key, decodeText value)

/-- The pieces between separators; there is one more than separators. -/
def pieces {α : Type} (isSeparator : α → Bool) : List α → List (List α)
  | [] => [[]]
  | a :: rest =>
    match pieces isSeparator rest with
    | [] => [[a]]
    | piece :: more => if isSeparator a then [] :: piece :: more else (a :: piece) :: more

/-- The pairs of a written form. -/
def decode (text : List Char) : List Pair :=
  ((pieces (· == 0x26) (Utf8.encode text)).filter fun piece => !piece.isEmpty).map decodePair

end DaemonRpc.Url.Form

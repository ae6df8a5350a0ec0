/-!
# UTF-8 as an octet machine

Decoding reads one octet at a time. The only state is the list of octets of a sequence that is not
finished yet, so decoding a text in pieces is decoding it at once (`feed_append`). Every maximal
part of the input that cannot belong to a well-formed sequence becomes one U+FFFD.
-/

namespace DaemonRpc.Utf8

/-- Stands for input that is not well formed. -/
def replacement : Char := '\uFFFD'

/-- The octets of a text. -/
def encode (text : List Char) : List UInt8 :=
  text.flatMap String.utf8EncodeChar

/-- The octets of a string. -/
def ofString (s : String) : List UInt8 :=
  encode s.toList

/-- How many octets the sequence led by this octet has; `none` if it leads no sequence. -/
def width (lead : UInt8) : Option Nat :=
  -- 0xC0 and 0xC1 could lead only characters that have a shorter form.
  if lead < 0x80 then some 1
  else if lead < 0xC2 then none
  else if lead < 0xE0 then some 2
  else if lead < 0xF0 then some 3
  else if lead < 0xF5 then some 4
  else none

/-- The least and the greatest octet that may follow this lead. -/
def secondRange (lead : UInt8) : UInt8 × UInt8 :=
  -- These four leads exclude forms that are too long, surrogates, and numbers beyond U+10FFFF.
  if lead = 0xE0 then (0xA0, 0xBF)
  else if lead = 0xED then (0x80, 0x9F)
  else if lead = 0xF0 then (0x90, 0xBF)
  else if lead = 0xF4 then (0x80, 0x8F)
  else (0x80, 0xBF)

/-- The octet carries on the unfinished sequence `held`. -/
def continues (held : List UInt8) (octet : UInt8) : Bool :=
  match held with
  | [] => false
  | [lead] => (secondRange lead).1 ≤ octet && octet ≤ (secondRange lead).2
  | _ => 0x80 ≤ octet && octet ≤ 0xBF

/-- The unfinished sequence `held` has all its octets. -/
def isWhole (held : List UInt8) : Bool :=
  match held with
  | [] => false
  | lead :: _ => width lead == some held.length

/-- The payload bits of a continuation octet. -/
def payload (octet : UInt8) : Nat := octet.toNat % 64

/-- The character of a whole sequence. -/
def assemble : List UInt8 → Char
  | [a] => Char.ofNat a.toNat
  | [a, b] => Char.ofNat (a.toNat % 32 * 64 + payload b)
  | [a, b, c] => Char.ofNat ((a.toNat % 16 * 64 + payload b) * 64 + payload c)
  | [a, b, c, d] => Char.ofNat (((a.toNat % 8 * 64 + payload b) * 64 + payload c) * 64 + payload d)
  | _ => replacement

/-- An octet that comes while no sequence is unfinished: the text it gives, and what is unfinished
after it. -/
def start (octet : UInt8) : List Char × List UInt8 :=
  match width octet with
  | none => ([replacement], [])
  | some 1 => ([assemble [octet]], [])
  | some _ => ([], [octet])

/-- One octet: the text it completes, and what is unfinished after it. An octet that does not carry
on the unfinished sequence ends it as malformed and is then read on its own. -/
def step (held : List UInt8) (octet : UInt8) : List Char × List UInt8 :=
  if continues held octet then
    -- The sequence goes on, and may be complete with this octet.
    let grown := held ++ [octet]
    if isWhole grown then ([assemble grown], []) else ([], grown)
  else
    -- What was held, if anything, is a maximal malformed part.
    let (text, rest) := start octet
    (if held.isEmpty then text else replacement :: text, rest)

/-- A run of octets: the text it completes, and what is unfinished after it. -/
def feed (held : List UInt8) : List UInt8 → List Char × List UInt8
  | [] => ([], held)
  | octet :: octets =>
    let (text, grown) := step held octet
    let (more, last) := feed grown octets
    (text ++ more, last)

/-- The text of an unfinished sequence when the input ends. -/
def flush (held : List UInt8) : List Char :=
  if held.isEmpty then [] else [replacement]

/-- The text of a whole input, with a replacement for each malformed part. -/
def lossy (octets : List UInt8) : List Char :=
  let (text, held) := feed [] octets
  text ++ flush held

/-- The text of a well-formed input, `none` for any other. -/
def decode? (octets : List UInt8) : Option (List Char) :=
  -- What `encode` writes is well formed, so other input is never equal to it.
  let text := lossy octets
  if encode text = octets then some text else none

/-- The string of a whole input, with a replacement for each malformed part. -/
def toStringLossy (octets : List UInt8) : String :=
  String.ofList (lossy octets)

theorem encode_append (a b : List Char) : encode (a ++ b) = encode a ++ encode b :=
  List.flatMap_append

theorem encode_cons (c : Char) (text : List Char) :
    encode (c :: text) = String.utf8EncodeChar c ++ encode text :=
  List.flatMap_cons

/-- Feeding two runs one after the other is feeding them at once. -/
theorem feed_append (held a b : List UInt8) :
    feed held (a ++ b) =
      ((feed held a).1 ++ (feed (feed held a).2 b).1, (feed (feed held a).2 b).2) := by
  induction a generalizing held with
  | nil => simp [feed]
  | cons octet a ih => simp [feed, ih]

/-- What `decode?` accepts is the octets of the text it returns. -/
theorem encode_of_decode? {octets : List UInt8} {text : List Char}
    (h : decode? octets = some text) : encode text = octets := by
  simp only [decode?] at h
  split at h
  · next heq => exact (Option.some.inj h) ▸ heq
  · simp at h

end DaemonRpc.Utf8

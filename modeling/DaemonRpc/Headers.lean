import DaemonRpc.Text.Utf8
import DaemonRpc.Text.Blank
import DaemonRpc.Text.Quoted

/-!
# Header fields

An ordered collection of header fields. A name is in lower case and occurs once, with at least one
value; values are octets. Putting values under a name keeps the place of the name.
-/

namespace DaemonRpc

/-- The value of a header field. -/
abbrev HeaderValue := List UInt8

/-- A name with its values in order. -/
structure HeaderField where
  /-- The name, in lower case. -/
  name : String
  /-- The values. -/
  values : List HeaderValue
  deriving DecidableEq, Repr

/-- Header fields in the order in which their names came. -/
structure Headers where
  /-- The fields, one for each name. -/
  fields : List HeaderField := []
  deriving DecidableEq, Repr

namespace HeaderValue

/-- The octet is visible ASCII, a blank or a tab. -/
def isVisible (b : UInt8) : Bool := (0x20 ≤ b && b ≤ 0x7E) || b == 0x09

/-- The text of a value; `none` if an octet is not visible. -/
def text? (value : HeaderValue) : Option String :=
  if value.all isVisible then some (String.ofList (value.map fun b => Char.ofNat b.toNat)) else none

/-- A value between quotation marks, with the octets that are not visible in hexadecimal. -/
def quote (value : HeaderValue) : String :=
  let write := fun b : UInt8 =>
    -- Of the visible octets only the quotation mark is written with a backslash.
    if b == 0x22 then ['\\', '"']
    else if isVisible b then [Char.ofNat b.toNat]
    else '\\' :: 'x' :: Nat.toDigits 16 b.toNat
  String.ofList ('"' :: value.flatMap write ++ ['"'])

end HeaderValue

namespace Headers

/-- The form in which a name is kept. -/
def canonicalName (name : String) : String := name.map Text.lowerAscii

/-- The values of a name. -/
def getAll (h : Headers) (name : String) : List HeaderValue :=
  ((h.fields.find? fun f => f.name == name).map (·.values)).getD []

/-- The first value of a name. -/
def get? (h : Headers) (name : String) : Option HeaderValue := (h.getAll name).head?

/-- The name has a value. -/
def contains (h : Headers) (name : String) : Bool := (h.get? name).isSome

/-- Put values under a name, in place of those it has. -/
def putField (name : String) (values : List HeaderValue) : List HeaderField → List HeaderField
  | [] => [⟨name, values⟩]
  | f :: rest => if f.name = name then ⟨name, values⟩ :: rest else f :: putField name values rest

/-- Put values under a name, in place of those it has. -/
def put (h : Headers) (name : String) (values : List HeaderValue) : Headers :=
  ⟨putField name values h.fields⟩

/-- Give a name one value, in place of those it has. -/
def insert (h : Headers) (name : String) (value : HeaderValue) : Headers := h.put name [value]

/-- Give a name one value more. -/
def append (h : Headers) (name : String) (value : HeaderValue) : Headers :=
  h.put name (h.getAll name ++ [value])

/-- Overlay other fields: every name they carry has their values. -/
def extend (h other : Headers) : Headers :=
  other.fields.foldl (fun h f => h.put f.name f.values) h

/-- Pairs of a name and a value; the values of a name follow each other. -/
def toList (h : Headers) : List (String × HeaderValue) :=
  h.fields.flatMap fun f => f.values.map fun v => (f.name, v)

/-- The text of the fields in diagnostics. -/
def display (h : Headers) : String :=
  let entries := h.toList.map fun (name, value) => Text.quote name ++ ": " ++ value.quote
  "\x7b" ++ String.intercalate ", " entries ++ "\x7d"

/-- Looking a name up after putting values under one. -/
theorem getAll_put (h : Headers) (name other : String) (values : List HeaderValue) :
    (h.put name values).getAll other = if name = other then values else h.getAll other := by
  obtain ⟨fields⟩ := h
  induction fields with
  | nil => by_cases hn : name = other <;> simp [put, putField, getAll, hn]
  | cons f rest ih =>
    by_cases hf : f.name = name
    · by_cases hn : name = other <;> simp [put, putField, getAll, hf, hn]
    · by_cases ho : f.name = other
      · have hn : name ≠ other := fun hn => hf (ho.trans hn.symm)
        simp [put, putField, getAll, ho, hn, Ne.symm hn]
      · simpa [put, putField, getAll, hf, ho] using ih

end Headers

end DaemonRpc

import DaemonRpc.Json.Parser

/-!
# Typed readings of JSON

A `Decoder` reads items of one type, both from text and from a value that is already read. Records
are read from an object with the names of their fields or from a list with the fields in order;
members of unknown names are skipped, repeated ones are refused.
-/

namespace DaemonRpc.Json

/-- The failure to find what was expected at the place reached, which reads the item there in order
to name it. -/
def refusal (expected : String) (c : Cursor) : Failure :=
  let refuse {α : Type} (read : Except Failure (α × Cursor)) (found : α → Found) : Failure :=
    match read with
    | .error e => e
    | .ok (a, c) => c.failure (.invalidType (found a) expected)
  match c.peek? with
  | none => c.failureAhead .expectedValue
  | some b =>
    if b = octet 'n' then refuse (readIdent ['u', 'l', 'l'] c.advance) fun _ => .null
    else if b = octet 't' then refuse (readIdent ['r', 'u', 'e'] c.advance) fun _ => .bool true
    else if b = octet 'f' then
      refuse (readIdent ['a', 'l', 's', 'e'] c.advance) fun _ => .bool false
    else if b = octet '-' then refuse (readNumber true c.advance) .number
    else if c.atDigit then refuse (readNumber false c) .number
    else if b = octet '"' then refuse (readString c.advance) .string
    else if b = octet '[' then c.failure (.invalidType .sequence expected)
    else if b = octet '\x7b' then c.failure (.invalidType .map expected)
    else c.failureAhead .expectedValue

/-- Go to the next item, which must exist, and read it by its first octet. -/
def readItem {α : Type} (read : UInt8 → Reader α) : Reader α := fun c =>
  let c := c.skipBlanks
  match c.peek? with
  | none => .error (c.failureAhead .eofInValue)
  | some b => read b c

/-- How items of a type are read. -/
structure Decoder (α : Type) where
  /-- From text. -/
  ofText : Reader α
  /-- From a value. -/
  ofValue : Value → Except Cause α

namespace Decoder

/-- Change what is read. -/
def map {α β : Type} (f : α → β) (d : Decoder α) : Decoder β where
  ofText := fun c => (d.ofText c).map fun (a, c) => (f a, c)
  ofValue := fun v => (d.ofValue v).map f

/-- Any value. -/
def any : Decoder Value where
  ofText := readValue
  ofValue := .ok

/-- A string. -/
def string : Decoder String where
  ofText := readItem fun b c =>
    if b = octet '"' then readString c.advance else .error (refusal "a string" c)
  ofValue
    | .string s => .ok s
    | v => .error (.invalidType v.found "a string")

/-- A truth value. -/
def bool : Decoder Bool where
  ofText := readItem fun b c => do
    if b = octet 't' then
      let ((), c) ← readIdent ['r', 'u', 'e'] c.advance
      return (true, c)
    else if b = octet 'f' then
      let ((), c) ← readIdent ['a', 'l', 's', 'e'] c.advance
      return (false, c)
    else throw (refusal "a boolean" c)
  ofValue
    | .bool b => .ok b
    | v => .error (.invalidType v.found "a boolean")

/-- The whole number `n` if it lies from `low` to `high`. -/
def inRange (low high : Int) (typeName : String) (n : Number) : Except Cause Int :=
  match n with
  | .integer i =>
    if low ≤ i ∧ i ≤ high then .ok i else .error (.invalidValue (.number n) typeName)
  | .float _ _ => .error (.invalidType (.number n) typeName)

/-- A whole number from `low` to `high`. -/
def integer (low high : Int) (typeName : String) : Decoder Int where
  ofText := readItem fun b c => do
    if b = octet '-' ∨ c.atDigit then
      let (n, c) ← if b = octet '-' then readNumber true c.advance else readNumber false c
      match inRange low high typeName n with
      | .ok i => return (i, c)
      | .error cause => throw (c.failure cause)
    else throw (refusal typeName c)
  ofValue
    | .number n => inRange low high typeName n
    | v => .error (.invalidType v.found typeName)

/-- A signed 64-bit number. -/
def int64 : Decoder Int := integer Int64.minValue.toInt Int64.maxValue.toInt "i64"

/-- An unsigned 64-bit number. -/
def nat64 : Decoder Nat := (integer 0 (UInt64.size - 1) "u64").map Int.toNat

/-- An item or `null`. -/
def optional {α : Type} (d : Decoder α) : Decoder (Option α) where
  ofText := fun c => do
    let c := c.skipBlanks
    if c.at? 'n' then
      let ((), c) ← readIdent ['u', 'l', 'l'] c.advance
      return (none, c)
    else
      let (a, c) ← d.ofText c
      return (some a, c)
  ofValue
    | .null => .ok none
    | v => (d.ofValue v).map some

/-- Read elements up to the closing bracket, which stays. `fuel` is more than the octets left. -/
def readList {α : Type} (read : Reader α) : Nat → Bool → List α → Reader (List α)
  | 0, _, _, c => .error (c.failureAhead .eofInList)
  | fuel + 1, first, taken, c =>
    match nextElement first c with
    | .error e => .error e
    | .ok (false, c) => .ok (taken.reverse, c)
    | .ok (true, c) =>
      match read c with
      | .error e => .error e
      | .ok (a, c) => readList read fuel false (a :: taken) c

/-- A list of items. -/
def listOf {α : Type} (d : Decoder α) : Decoder (List α) where
  ofText := readItem fun b c => do
    if b = octet '[' then
      let (items, c) ← readList d.ofText (c.rest.length + 1) true [] c.advance
      return (items, c.advance)
    else throw (refusal "a sequence" c)
  ofValue
    | .array elements => elements.mapM d.ofValue
    | v => .error (.invalidType v.found "a sequence")

end Decoder

/-! ## Records -/

/-- A field of a record of type `σ`. -/
structure Field (σ : Type) where
  /-- The names it may have, the one that failures report first. -/
  names : List String
  /-- An object must have it. -/
  neededInObject : Bool
  /-- A list must have it. -/
  neededInList : Bool
  /-- How its item is put into the record. -/
  decoder : Decoder (σ → σ)

namespace Field

variable {σ α : Type}

/-- A field that must be given. -/
def required (name : String) (d : Decoder α) (set : α → σ → σ) : Field σ :=
  ⟨[name], true, true, d.map set⟩

/-- A field that keeps its initial item when it is not given. -/
def defaulted (name : String) (d : Decoder α) (set : α → σ → σ) : Field σ :=
  ⟨[name], false, false, d.map set⟩

/-- A field that an object may leave out or give as `null`. -/
def optional (names : List String) (d : Decoder α) (set : Option α → σ → σ) : Field σ :=
  ⟨names, false, true, d.optional.map set⟩

/-- The name that failures report. -/
def name (f : Field σ) : String := f.names.headD ""

end Field

/-- How a record of type `σ` is read. -/
structure Record (σ : Type) where
  /-- Its name in failures. -/
  name : String
  /-- Its fields in order. -/
  fields : List (Field σ)
  /-- The record before any field is read. -/
  initial : σ

namespace Record

variable {σ : Type}

/-- The field that has this name. -/
def field? (r : Record σ) (key : String) : Option (Field σ) :=
  r.fields.find? fun f => f.names.contains key

/-- The first field that an object needs and that is not among the names seen. -/
def missing? (r : Record σ) (seen : List String) : Option (Field σ) :=
  r.fields.find? fun f => f.neededInObject && !seen.contains f.name

/-- What a list that is too short should have been. -/
def expectedList (r : Record σ) : String :=
  "struct " ++ r.name ++ " with " ++ toString r.fields.length ++
    (if r.fields.length = 1 then " element" else " elements")

/-- The place after the end of an object, if it ends here. -/
def afterObject (c : Cursor) : Cursor :=
  let c := c.skipBlanks
  if c.at? '\x7d' then c.advance else c

/-- The place after the end of a list, if it ends here, or after a comma. -/
def afterList (c : Cursor) : Cursor :=
  let c := c.skipBlanks
  if c.at? ']' then c.advance else if c.at? ',' then c.advance.skipBlanks else c

/-- Go past the end of a list all of whose fields are read. -/
def endList : Reader Unit := fun c =>
  let c := c.skipBlanks
  match c.peek? with
  | none => .error (c.failureAhead .eofInList)
  | some b =>
    if b = octet ']' then .ok ((), c.advance)
    else if b = octet ',' then
      let c := c.advance.skipBlanks
      .error (c.failureAhead (if c.at? ']' then .trailingComma else .trailingCharacters))
    else .error (c.failureAhead .trailingCharacters)

/-- Read fields in order; `index` of them are read already. -/
def readInOrder (r : Record σ) : List (Field σ) → Nat → σ → Reader σ
  | [], _, record, c => .ok (record, c)
  | f :: rest, index, record, c =>
    match nextElement (index == 0) c with
    | .error e => .error e
    | .ok (false, c) =>
      if f.neededInList then
        .error ((afterList c).failure (.invalidLength index r.expectedList))
      else readInOrder r rest index record c
    | .ok (true, c) =>
      match f.decoder.ofText c with
      | .error e => .error e
      | .ok (set, c) => readInOrder r rest (index + 1) (set record) c

/-- Read members up to the closing brace, which stays. `seen` holds the names of the fields that
are read already; `fuel` is more than the octets left. -/
def readByName (r : Record σ) : Nat → Bool → List String → σ → Reader (σ × List String)
  | 0, _, _, _, c => .error (c.failureAhead .eofInObject)
  | fuel + 1, first, seen, record, c =>
    match nextMember first c with
    | .error e => .error e
    | .ok (false, c) => .ok ((record, seen), c)
    | .ok (true, c) => do
      let (key, c) ← readString c.advance
      match r.field? key with
      | none =>
        -- Nobody asked for this member.
        let ((), c) ← readColon c
        let ((), c) ← skipValue c
        readByName r fuel false seen record c
      | some f =>
        -- A repeated member is refused before its value is read.
        if seen.contains f.name then throw ((afterObject c).failure (.duplicateField f.name))
        let ((), c) ← readColon c
        let (set, c) ← f.decoder.ofText c
        readByName r fuel false (f.name :: seen) (set record) c

/-- The record with the members of a value put in. -/
def putMembers (r : Record σ) :
    List (String × Value) → List String → σ → Except Cause (σ × List String)
  | [], seen, record => .ok (record, seen)
  | (key, v) :: rest, seen, record =>
    match r.field? key with
    | none => putMembers r rest seen record
    | some f =>
      if seen.contains f.name then .error (.duplicateField f.name)
      else
        match f.decoder.ofValue v with
        | .error e => .error e
        | .ok set => putMembers r rest (f.name :: seen) (set record)

/-- The record with elements put in, in the order of the fields; `index` of them are put in
already, `length` is the number of all. -/
def putInOrder (r : Record σ) (length : Nat) :
    List (Field σ) → List Value → Nat → σ → Except Cause σ
  | [], [], _, record => .ok record
  -- The list is longer than the record.
  | [], _ :: _, _, _ => .error (.invalidLength length "fewer elements in array")
  | f :: rest, [], index, record =>
    if f.neededInList then .error (.invalidLength index r.expectedList)
    else putInOrder r length rest [] index record
  | f :: rest, v :: more, index, record =>
    match f.decoder.ofValue v with
    | .error e => .error e
    | .ok set => putInOrder r length rest more (index + 1) (set record)

/-- How the record is read. -/
def decoder (r : Record σ) : Decoder σ where
  ofText := readItem fun b c => do
    if b = octet '[' then
      let (record, c) ← r.readInOrder r.fields 0 r.initial c.advance
      let ((), c) ← endList c
      return (record, c)
    else if b = octet '\x7b' then
      let ((record, seen), c) ← r.readByName (c.rest.length + 1) true [] r.initial c.advance
      -- The closing brace counts as read when a member is missed.
      match r.missing? seen with
      | some f => throw (c.advance.failure (.missingField f.name))
      | none => return (record, c.advance)
    else throw (refusal ("struct " ++ r.name) c)
  ofValue
    | .object members => do
      let (record, seen) ← r.putMembers members [] r.initial
      match r.missing? seen with
      | some f => throw (.missingField f.name)
      | none => return record
    | .array elements => r.putInOrder elements.length r.fields elements 0 r.initial
    | v => .error (.invalidType v.found ("struct " ++ r.name))

end Record

namespace Decoder

variable {α : Type}

/-- The item that a whole text holds. -/
def parse (d : Decoder α) (octets : List UInt8) : Except Failure α := readWhole d.ofText octets

/-- The item that a value holds. -/
def interpret (d : Decoder α) (v : Value) : Except Failure α :=
  (d.ofValue v).mapError fun cause => ⟨cause, none⟩

end Decoder

end DaemonRpc.Json

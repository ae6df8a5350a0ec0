import DaemonRpc.Json.Scalar

/-!
# Reading JSON values

The reader of values, with a bound on how deep containers may nest, and the reader that goes past a
value nobody asked for. The second has no bound, does not look inside strings, and reports some
faults in other words.
-/

namespace DaemonRpc.Json

/-! ## Items of containers -/

/-- Go to the next element of a list: `true` at an element, `false` at the closing bracket. -/
def nextElement (first : Bool) : Reader Bool := fun c =>
  let c := c.skipBlanks
  match c.peek? with
  | none => .error (c.failureAhead .eofInList)
  | some b =>
    if b = octet ']' then .ok (false, c)
    else if first then .ok (true, c)
    else if b = octet ',' then
      let c := c.advance.skipBlanks
      match c.peek? with
      | none => .error (c.failureAhead .eofInValue)
      | some b => if b = octet ']' then .error (c.failureAhead .trailingComma) else .ok (true, c)
    else .error (c.failureAhead .expectedListEnd)

/-- Go to the opening quotation mark of the next key of an object; `false` at the closing brace. -/
def nextMember (first : Bool) : Reader Bool := fun c =>
  let c := c.skipBlanks
  match c.peek? with
  | none => .error (c.failureAhead .eofInObject)
  | some b =>
    if b = octet '\x7d' then .ok (false, c)
    else if first then
      if b = octet '"' then .ok (true, c) else .error (c.failureAhead .keyNotString)
    else if b = octet ',' then
      let c := c.advance.skipBlanks
      match c.peek? with
      | none => .error (c.failureAhead .eofInValue)
      | some b =>
        if b = octet '"' then .ok (true, c)
        else if b = octet '\x7d' then .error (c.failureAhead .trailingComma)
        else .error (c.failureAhead .keyNotString)
    else .error (c.failureAhead .expectedObjectEnd)

/-- Go past the colon after a key. -/
def readColon : Reader Unit := fun c =>
  let c := c.skipBlanks
  match c.peek? with
  | none => .error (c.failureAhead .eofInObject)
  | some b =>
    if b = octet ':' then .ok ((), c.advance) else .error (c.failureAhead .expectedColon)

/-- The elements up to the closing bracket, which stays. `fuel` is at least the number of octets
left. -/
def readElements (read : Reader Value) : Nat → Bool → List Value → Reader (List Value)
  | 0, _, _, c => .error (c.failureAhead .eofInList)
  | fuel + 1, first, taken, c =>
    match nextElement first c with
    | .error e => .error e
    | .ok (false, c) => .ok (taken.reverse, c)
    | .ok (true, c) =>
      match read c with
      | .error e => .error e
      | .ok (v, c) => readElements read fuel false (v :: taken) c

/-- The members up to the closing brace, which stays. `fuel` is at least the number of octets
left. -/
def readMembers (read : Reader Value) :
    Nat → Bool → List (String × Value) → Reader (List (String × Value))
  | 0, _, _, c => .error (c.failureAhead .eofInObject)
  | fuel + 1, first, taken, c =>
    match nextMember first c with
    | .error e => .error e
    | .ok (false, c) => .ok (taken.reverse, c)
    | .ok (true, c) => do
      let (key, c) ← readString c.advance
      let ((), c) ← readColon c
      let (v, c) ← read c
      readMembers read fuel false ((key, v) :: taken) c

/-! ## Values -/

/-- Read a value whose containers hold values read by `inner`; without `inner` containers nest too
deep. -/
def readValueWith (inner : Option (Reader Value)) : Reader Value := fun c => do
  let c := c.skipBlanks
  match c.peek? with
  | none => throw (c.failureAhead .eofInValue)
  | some b =>
    if b = octet 'n' then
      let ((), c) ← readIdent ['u', 'l', 'l'] c.advance
      return (.null, c)
    else if b = octet 't' then
      let ((), c) ← readIdent ['r', 'u', 'e'] c.advance
      return (.bool true, c)
    else if b = octet 'f' then
      let ((), c) ← readIdent ['a', 'l', 's', 'e'] c.advance
      return (.bool false, c)
    else if b = octet '-' then
      let (n, c) ← readNumber true c.advance
      return (.number n, c)
    else if c.atDigit then
      let (n, c) ← readNumber false c
      return (.number n, c)
    else if b = octet '"' then
      let (s, c) ← readString c.advance
      return (.string s, c)
    else if b = octet '[' then
      match inner with
      | none => throw (c.failureAhead .tooDeep)
      | some read =>
        let (elements, c) ← readElements read (c.rest.length + 1) true [] c.advance
        return (.array elements, c.advance)
    else if b = octet '\x7b' then
      match inner with
      | none => throw (c.failureAhead .tooDeep)
      | some read =>
        let (members, c) ← readMembers read (c.rest.length + 1) true [] c.advance
        return (.ofMembers members, c.advance)
    else throw (c.failureAhead .expectedValue)

/-- Read a value whose containers nest at most `depth` deep. -/
def readValueWithin : Nat → Reader Value
  | 0 => readValueWith none
  | depth + 1 => readValueWith (some (readValueWithin depth))

/-- How deep containers may nest. -/
def maxDepth : Nat := 127

/-- Read a value. -/
def readValue : Reader Value := readValueWithin maxDepth

/-! ## Values that are skipped -/

/-- Go past an escape after its backslash. -/
def skipEscape : Reader Unit := fun c =>
  match c.peek? with
  | none => .error (c.failure .eofInString)
  | some b =>
    if b = octet 'u' then (readHex c.advance).map fun (_, c) => ((), c)
    else if (simpleEscape? b).isSome then .ok ((), c.advance)
    else .error (c.advance.failure .invalidEscape)

/-- Go past a string after its opening quotation mark. `fuel` is more than the octets left. -/
def skipString : Nat → Reader Unit
  | 0, c => .error (c.failure .eofInString)
  | fuel + 1, c =>
    match c.peek? with
    | none => .error (c.failure .eofInString)
    | some b =>
      if b = octet '"' then .ok ((), c.advance)
      else if b = octet '\\' then
        match skipEscape c.advance with
        | .error e => .error e
        | .ok ((), c) => skipString fuel c
      -- Here the failure is reported before the character, not after it.
      else if b < 0x20 then .error (c.failure .controlCharacter)
      else skipString fuel c.advance

/-- Go past an exponent after its `e`. -/
def skipExponent : Reader Unit := fun c =>
  let c := if c.at? '+' || c.at? '-' then c.advance else c
  if c.atDigit then .ok ((), c.takeDigits.2)
  else .error (c.advance.failure .invalidNumber)

/-- Go past a number after its sign. -/
def skipNumber : Reader Unit := fun c =>
  if !c.atDigit then .error (c.advance.failure .invalidNumber)
  else if c.at? '0' && c.advance.atDigit then .error (c.advance.failureAhead .invalidNumber)
  else
    let c := c.takeDigits.2
    if c.at? '.' then
      let (digits, after) := c.advance.takeDigits
      if digits.isEmpty then .error (c.advance.failureAhead .invalidNumber)
      else if after.atExponent then skipExponent after.advance
      else .ok ((), after)
    else if c.atExponent then skipExponent c.advance
    else .ok ((), c)

/-- The container around an item that is skipped. -/
inductive Enclosing where
  | list
  | object
  deriving DecidableEq, Repr

/-- The octet that closes a container. -/
def Enclosing.close : Enclosing → UInt8
  | .list => octet ']'
  | .object => octet '\x7d'

/-- The failure when the text ends inside a container. -/
def Enclosing.eof : Enclosing → Cause
  | .list => .eofInList
  | .object => .eofInObject

/-- The failure when an item is followed by neither a comma nor the end of its container. -/
def Enclosing.unended : Enclosing → Cause
  | .list => .expectedListEnd
  | .object => .expectedObjectEnd

/-- Go to the value of the next item of a container: in an object past its key and the colon. -/
def skipToValue (around : Enclosing) : Reader Unit := fun c =>
  match around with
  | .list => .ok ((), c)
  | .object => do
    let c := c.skipBlanks
    match c.peek? with
    | none => throw (c.failureAhead .eofInObject)
    | some b =>
      if b ≠ octet '"' then throw (c.failureAhead .keyNotString)
      let ((), c) ← skipString c.rest.length c.advance
      readColon c

/-- After an item, or at the start of a container: leave the containers that end here. Returns the
container whose next item follows, and those around it; `none` when all have ended. `fuel` is more
than the number of containers. -/
def leave : Nat → Bool → List Enclosing → Reader (Option (Enclosing × List Enclosing))
  | 0, _, _, c => .ok (none, c)
  | _ + 1, _, [], c => .ok (none, c)
  | fuel + 1, afterItem, around :: outer, c =>
    let c := c.skipBlanks
    match c.peek? with
    | none => .error (c.failureAhead around.eof)
    | some b =>
      if b = octet ',' ∧ afterItem then .ok (some (around, outer), c.advance)
      else if b = around.close then leave fuel true outer c.advance
      else if afterItem then .error (c.failureAhead around.unended)
      else .ok (some (around, outer), c)

/-- Go past a value inside containers, and past the rest of these. `fuel` is more than the octets
left. -/
def skipValueWithin : Nat → List Enclosing → Reader Unit
  | 0, _, c => .error (c.failureAhead .eofInValue)
  | fuel + 1, around, c => do
    let c := c.skipBlanks
    match c.peek? with
    | none => throw (c.failureAhead .eofInValue)
    | some b =>
      -- A container is entered, any other value is passed at once.
      let (entered, c) ←
        if b = octet 'n' then do
          let ((), c) ← readIdent ['u', 'l', 'l'] c.advance
          pure (around, c)
        else if b = octet 't' then do
          let ((), c) ← readIdent ['r', 'u', 'e'] c.advance
          pure (around, c)
        else if b = octet 'f' then do
          let ((), c) ← readIdent ['a', 'l', 's', 'e'] c.advance
          pure (around, c)
        else if b = octet '-' then do
          let ((), c) ← skipNumber c.advance
          pure (around, c)
        else if c.atDigit then do
          let ((), c) ← skipNumber c
          pure (around, c)
        else if b = octet '"' then do
          let ((), c) ← skipString c.rest.length c.advance
          pure (around, c)
        else if b = octet '[' then pure (.list :: around, c.advance)
        else if b = octet '\x7b' then pure (.object :: around, c.advance)
        else throw (c.failureAhead .expectedValue)
      -- Only a value that is complete can be followed by a comma.
      let (next, c) ← leave (entered.length + 1) (entered.length = around.length) entered c
      match next with
      | none => return ((), c)
      | some (inside, outer) =>
        let ((), c) ← skipToValue inside c
        skipValueWithin fuel (inside :: outer) c

/-- Go past a value. -/
def skipValue : Reader Unit := fun c => skipValueWithin (c.rest.length + 1) [] c

/-! ## Whole texts -/

/-- Nothing but blanks is left. -/
def readEnd : Reader Unit := fun c =>
  let c := c.skipBlanks
  if c.rest.isEmpty then .ok ((), c) else .error (c.failureAhead .trailingCharacters)

/-- Read a whole text. -/
def readWhole {α : Type} (read : Reader α) (octets : List UInt8) : Except Failure α := do
  let (a, c) ← read ⟨octets, ⟨1, 0⟩⟩
  let ((), _) ← readEnd c
  return a

/-- The value of a whole text. -/
def parse (octets : List UInt8) : Except Failure Value := readWhole readValue octets

/-- The value of a string. -/
def parseText (s : String) : Except Failure Value := parse (Utf8.ofString s)

end DaemonRpc.Json

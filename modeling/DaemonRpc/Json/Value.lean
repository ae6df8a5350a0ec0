import DaemonRpc.Number.Binary64

/-!
# JSON values

A JSON value as the client holds it. Whole numbers in the range of 64-bit words are kept exactly,
every other number is a binary64 number with a sign. The members of an object are sorted by key and
no key occurs twice.
-/

namespace DaemonRpc.Json

/-- A JSON number. -/
inductive Number where
  /-- A whole number from `-2 ^ 63` to `2 ^ 64 - 1`. -/
  | integer (value : Int)
  /-- A number with a fraction, an exponent, a size beyond 64 bits, or a negative zero. -/
  | float (negative : Bool) (magnitude : Binary64)
  deriving DecidableEq, Repr

/-- A JSON value. -/
inductive Value where
  | null
  | bool (value : Bool)
  | number (value : Number)
  | string (value : String)
  | array (elements : List Value)
  | object (members : List (String × Value))
  deriving Repr

instance : Inhabited Value := ⟨.null⟩

/-- Put a member into a sorted list of members; an equal key loses its value. -/
def putMember (key : String) (value : Value) : List (String × Value) → List (String × Value)
  | [] => [(key, value)]
  | (k, v) :: rest =>
    if key = k then (k, value) :: rest
    else if key < k then (key, value) :: (k, v) :: rest
    else (k, v) :: putMember key value rest

namespace Value

/-- The object with these members; of two members with one key the later one stays. -/
def ofMembers (members : List (String × Value)) : Value :=
  .object (members.foldl (fun sorted member => putMember member.1 member.2 sorted) [])

/-- The value of the member `key`; `none` also if this is no object. -/
def member? (v : Value) (key : String) : Option Value :=
  match v with
  | .object members => members.lookup key
  | _ => none

/-- The text of a string value. -/
def text? : Value → Option String
  | .string s => some s
  | _ => none

/-- The string value of a text, `null` for none. -/
def ofText? : Option String → Value
  | some s => .string s
  | none => .null

end Value

end DaemonRpc.Json

import DaemonRpc.Text.Quoted
import DaemonRpc.Url.Form

/-!
# Query parameters

A list of pairs in which a key may occur again. Setting a key leaves it one value at the place of
its first one; merging overlays a list on another key by key. Keys can be brought into kebab case,
the form in which the daemon knows its options.
-/

namespace DaemonRpc

/-- Query parameters in order. -/
structure Params where
  /-- Keys with their values. -/
  pairs : List (String × String) := []
  deriving DecidableEq, Repr

namespace Params

/-- Add a value to those of a key. -/
def append (p : Params) (key value : String) : Params := ⟨p.pairs ++ [(key, value)]⟩

/-- Take all values of a key away. -/
def remove (p : Params) (key : String) : Params := ⟨p.pairs.filter fun pair => pair.1 ≠ key⟩

/-- The first value of a key. -/
def get? (p : Params) (key : String) : Option String :=
  (p.pairs.find? fun pair => pair.1 = key).map (·.2)

/-- The values of a key. -/
def getAll (p : Params) (key : String) : List String :=
  (p.pairs.filter fun pair => pair.1 = key).map (·.2)

/-- The key has a value. -/
def contains (p : Params) (key : String) : Bool := p.pairs.any fun pair => pair.1 = key

/-- Give the first pair of a key this value and take its other pairs away; add the pair at the end
if there is none. -/
def setPairs (key value : String) : List (String × String) → List (String × String)
  | [] => [(key, value)]
  | pair :: rest =>
    if pair.1 = key then (key, value) :: rest.filter fun pair => pair.1 ≠ key
    else pair :: setPairs key value rest

/-- Give a key one value, at the place of its first one. -/
def set (p : Params) (key value : String) : Params := ⟨setPairs key value p.pairs⟩

/-- How many pairs there are. -/
def size (p : Params) : Nat := p.pairs.length

/-- There is no pair. -/
def isEmpty (p : Params) : Bool := p.pairs.isEmpty

/-- Overlay other parameters: every key they carry loses its values here, and they follow. -/
def merge (p other : Params) : Params :=
  ⟨(other.pairs.foldl (fun p pair => p.remove pair.1) p).pairs ++ other.pairs⟩

/-- The form-encoded text. -/
def encode (p : Params) : List Char := Url.Form.encode p.pairs

/-- Change every key. -/
def mapKeys (f : String → String) (p : Params) : Params :=
  ⟨p.pairs.map fun pair => (f pair.1, pair.2)⟩

/-- The kebab-case form of one character after the first: a capital starts a new word. -/
def kebabChar (c : Char) : List Char :=
  if 'A' ≤ c ∧ c ≤ 'Z' then ['-', Text.lowerAscii c] else if c = '_' then ['-'] else [c]

/-- The kebab-case form of a key: `cidVersion` and `cid_version` become `cid-version`. -/
def kebabKey (key : String) : String :=
  match key.toList with
  | [] => ""
  | first :: rest =>
    -- At the start a capital needs no mark before it.
    let start := if first = '_' then '-' else Text.lowerAscii first
    String.ofList (start :: rest.flatMap kebabChar)

/-- Bring every key into kebab case. -/
def kebab (p : Params) : Params := p.mapKeys kebabKey

/-- The text of the parameters in diagnostics. -/
def display (p : Params) : String :=
  let pairs := p.pairs.map fun pair => "(" ++ Text.quote pair.1 ++ ", " ++ Text.quote pair.2 ++ ")"
  "SearchParams \x7b pairs: [" ++ String.intercalate ", " pairs ++ "] \x7d"

end Params

end DaemonRpc

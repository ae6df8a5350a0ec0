import DaemonRpc.Url.Host

/-!
# URLs

A URL as its parts, each in its written form. The path is a list of segments, or for URLs such as
`mailto:a@b` one text without structure. `toString` writes the parts out.
-/

namespace DaemonRpc

namespace Url

/-- The path of a URL. -/
inductive Path where
  /-- Segments, each written after a slash. -/
  | segments (list : List (List Char))
  /-- A text that does not start with a slash and cannot be a base. -/
  | rootless (text : List Char)
  deriving DecidableEq, Repr

/-- The written form of a path. -/
def Path.write : Path → List Char
  | .segments list => list.flatMap ('/' :: ·)
  | .rootless text => text

end Url

/-- A URL. -/
structure Url where
  /-- The scheme, in lower case. -/
  scheme : List Char
  /-- The user name. -/
  username : List Char := []
  /-- The password. -/
  password : List Char := []
  /-- The host; `none` if the URL has no place for one, empty if that place is empty. -/
  host : Option (List Char) := none
  /-- The number after the host, if it is not the usual one of the scheme. -/
  portNumber : Option Nat := none
  /-- The path. -/
  path : Url.Path
  /-- The text after the question mark. -/
  query : Option (List Char) := none
  /-- The text after the number sign. -/
  fragment : Option (List Char) := none
  deriving DecidableEq, Repr

namespace Url

/-- The three kinds of scheme, which are read by different rules. -/
inductive SchemeKind where
  /-- The scheme `file`. -/
  | file
  /-- Another scheme whose URLs always have a host. -/
  | special
  /-- Any other scheme. -/
  | plain
  deriving DecidableEq, Repr

/-- The kind of a scheme. -/
def SchemeKind.of (scheme : List Char) : SchemeKind :=
  if scheme = "file".toList then .file
  else if scheme = "http".toList ∨ scheme = "https".toList ∨ scheme = "ws".toList ∨
      scheme = "wss".toList ∨ scheme = "ftp".toList then .special
  else .plain

/-- A backslash separates segments like a slash. -/
def SchemeKind.isSpecial (kind : SchemeKind) : Bool := kind != .plain

/-- The number that the scheme uses when none is given. -/
def usualPortNumber (scheme : List Char) : Option Nat :=
  if scheme = "http".toList ∨ scheme = "ws".toList then some 80
  else if scheme = "https".toList ∨ scheme = "wss".toList then some 443
  else if scheme = "ftp".toList then some 21
  else none

/-- The user name and password with their marks. -/
def writeCredentials (u : Url) : List Char :=
  let password := if u.password.isEmpty then [] else ':' :: u.password
  if u.username.isEmpty && u.password.isEmpty then [] else u.username ++ password ++ ['@']

/-- Everything between the scheme and the path. -/
def writeAuthority (u : Url) : List Char :=
  match u.host with
  | none => []
  | some host =>
    '/' :: '/' :: u.writeCredentials ++ host ++
      (match u.portNumber with
      | none => []
      | some n => ':' :: Nat.toDigits 10 n)

/-- The path; a mark keeps two slashes at its start from looking like a host. -/
def writePath (u : Url) : List Char :=
  match u.host, u.path with
  -- Without a host, an empty first segment would read back as the start of one.
  | none, .segments ([] :: segment :: more) =>
    '/' :: '.' :: Path.write (.segments ([] :: segment :: more))
  | _, path => path.write

/-- An optional part after its mark. -/
def writeOptional (mark : Char) : Option (List Char) → List Char
  | none => []
  | some text => mark :: text

/-- The written form of a URL. -/
def write (u : Url) : List Char :=
  u.scheme ++ ':' :: u.writeAuthority ++ u.writePath ++ writeOptional '?' u.query ++
    writeOptional '#' u.fragment

/-- The written form of a URL as a string. -/
def toText (u : Url) : String := String.ofList u.write

/-- The scheme as a string. -/
def schemeText (u : Url) : String := String.ofList u.scheme

/-- The kind of the scheme. -/
def kind (u : Url) : SchemeKind := .of u.scheme

/-- The URL has a host that is not empty. -/
def hasHost (u : Url) : Bool :=
  match u.host with
  | some (_ :: _) => true
  | _ => false

/-- Relative references can be joined to the URL. -/
def isBase (u : Url) : Bool :=
  match u.path with
  | .segments _ => true
  | .rootless _ => false

/-- The pairs of the query. -/
def queryPairs (u : Url) : List Form.Pair := Form.decode (u.query.getD [])

/-- The URL with another query, in which a number sign does not end the query. Nothing else of the
URL changes: a path without structure that ends in blanks keeps them, also if neither query nor
fragment is left behind them, where a library of URLs may strip them. With the schemes of HTTP every
path has structure, so that only requests with another scheme are concerned, such as the one for
`/mailto:x ?` under an empty API prefix. -/
def withQuery (u : Url) (query : Option (List Char)) : Url :=
  let set := if u.kind.isSpecial then specialQuerySet else querySet
  { u with query := query.map (percentEncode set) }

/-- The URL with a slash at the end of its path. A path without structure that is empty gets a
percent-encoded slash, since a plain one would give it structure. -/
def asDirectory (u : Url) : Url :=
  match u.path with
  | .segments list =>
    if list.getLast? = some [] then u else { u with path := .segments (list ++ [[]]) }
  | .rootless text =>
    if text.getLast? = some '/' then u
    else if text.isEmpty then { u with path := .rootless ['%', '2', 'F'] }
    else { u with path := .rootless (text ++ ['/']) }

end Url

end DaemonRpc

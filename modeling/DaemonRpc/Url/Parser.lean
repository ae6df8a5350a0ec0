import DaemonRpc.Url.Path

/-!
# Reading URLs

`Url.parse` reads an absolute URL, `Url.join` a reference relative to a base. Blanks and controls
around the text and tabs and line breaks inside it do not count. What a reference leaves out comes
from the base, from the left: scheme, host, the directory of the path, and the query.
-/

namespace DaemonRpc.Url

/-- The text without blanks and controls around it and without tabs and line breaks inside. -/
def clean (text : List Char) : List Char :=
  let isEdge := fun c : Char => c.toNat ≤ 0x20
  (Text.dropEndWhile isEdge (text.dropWhile isEdge)).filter fun c =>
    c != '\t' && c != '\n' && c != '\r'

/-- The character may stand in a scheme. -/
def isSchemeChar (c : Char) : Bool :=
  isLetter c || Text.isDigit c || c == '+' || c == '-' || c == '.'

/-- The scheme in lower case, and the text after its colon. -/
def splitScheme (text : List Char) : Option (List Char × List Char) :=
  match text.head?.map isLetter, text.dropWhile isSchemeChar with
  | some true, ':' :: rest => some ((text.takeWhile isSchemeChar).map Text.lowerAscii, rest)
  | _, _ => none

/-- The character ends a path. -/
def endsPath (c : Char) : Bool := c == '?' || c == '#'

/-- The character is a slash of either direction. -/
def isSlash (c : Char) : Bool := c == '/' || c == '\\'

/-- Read the query and the fragment at the start of the text into a URL. -/
def withTail (u : Url) (text : List Char) : Url :=
  let fragmentOf := fun text : List Char =>
    match text with
    | '#' :: rest => some (percentEncode fragmentSet rest)
    | _ => none
  match text with
  | '?' :: rest =>
    let query := some (rest.takeWhile (· != '#'))
    { u.withQuery query with fragment := fragmentOf (rest.dropWhile (· != '#')) }
  | _ => { u with query := none, fragment := fragmentOf text }

/-- Read the path, without its first slash, onto segments, and then query and fragment. -/
def withPath (u : Url) (base : List (List Char)) (text : List Char) : Url :=
  let path := readPath u.kind base (text.takeWhile fun c => !endsPath c)
  withTail { u with path := path } (text.dropWhile fun c => !endsPath c)

/-! ## The authority -/

/-- The user name and the password before the last at sign, and the text after it. -/
def splitCredentials (isEnd : Char → Bool) (text : List Char) :
    Option (List Char) × List Char :=
  -- At signs before the last one belong to the credentials.
  let authority := text.takeWhile fun c => !isEnd c
  match authority.reverse.dropWhile (· != '@') with
  | [] => (none, text)
  | _ :: before => (some before.reverse, text.drop (before.length + 1))

/-- The length of the host at the start of the text. A colon in square brackets belongs to it. -/
def hostLength (isEnd : Char → Bool) (bracketed : Bool) : List Char → Nat
  | [] => 0
  | c :: rest =>
    if isEnd c || (c == ':' && !bracketed) then 0
    else
      hostLength isEnd (if c == '[' then true else if c == ']' then false else bracketed) rest + 1

/-- Read the number after the colon behind a host, and the text after it. -/
def readPortNumber (scheme text : List Char) : Except ParseError (Option Nat × List Char) :=
  let digits := text.takeWhile Text.isDigit
  let rest := text.dropWhile Text.isDigit
  let ended := match rest with
    | [] => true
    | c :: _ => isSlash c || endsPath c
  let value := (Text.decimalValue digits).getD 0
  if 65535 < value ∨ !ended then .error .invalidPortNumber
  else if digits.isEmpty ∨ usualPortNumber scheme = some value then .ok (none, rest)
  else .ok (some value, rest)

/-- Read a URL from its authority on. -/
def readFromAuthority (scheme text : List Char) : Except ParseError Url := do
  let kind := SchemeKind.of scheme
  let isEnd := fun c : Char => c == '/' || endsPath c || (kind.isSpecial && c == '\\')
  let (credentials, text) := splitCredentials isEnd text
  -- Empty credentials are dropped, but not in front of nothing.
  if credentials = some [] ∧ (text.head?.any isEnd) then throw .emptyHost
  let credentials := credentials.getD []
  let username := percentEncode userinfoSet (credentials.takeWhile (· != ':'))
  let password := percentEncode userinfoSet ((credentials.dropWhile (· != ':')).drop 1)
  let length := hostLength isEnd false text
  let hostText := text.take length
  let rest := text.drop length
  if kind.isSpecial ∧ hostText.isEmpty then throw .emptyHost
  let host ← if kind.isSpecial then readHost hostText else readPlainHost hostText
  -- Neither a number nor credentials go with an empty host.
  if host.isEmpty ∧ rest.head? = some ':' then throw .emptyHost
  let (portNumber, rest) ← match rest with
    | ':' :: rest => readPortNumber scheme rest
    | _ => pure (none, rest)
  if host.isEmpty ∧ ¬(username.isEmpty ∧ password.isEmpty) then throw .emptyHost
  let u : Url := ⟨scheme, username, password, some host, portNumber, .segments [], none, none⟩
  match rest with
  | [] => return if kind.isSpecial then withPath u [] [] else u
  | c :: more =>
    if c == '/' || (kind.isSpecial && c == '\\') then return withPath u [] more
    else if endsPath c && !kind.isSpecial then return withTail u rest
    else return withPath u [] rest

/-! ## `file` URLs -/

/-- The `file` URL without host and path. -/
def fileRoot : Url :=
  ⟨"file".toList, [], [], some [], none, .segments [], none, none⟩

/-- The segments of a path. -/
def segmentsOf (u : Url) : List (List Char) :=
  match u.path with
  | .segments list => list
  | .rootless _ => []

/-- A drive at the start of the path takes the place of a host. -/
def withoutHostOfDrive (u : Url) : Url :=
  match u.path with
  | .segments (first :: _) => if isKeptDrive first then { u with host := some [] } else u
  | _ => u

/-- Read a `file` URL after its two slashes. -/
def readFileHost (text : List Char) : Except ParseError Url := do
  let hostText := text.takeWhile fun c => !isSlash c && !endsPath c
  let rest := text.dropWhile fun c => !isSlash c && !endsPath c
  let afterSlash := match rest with
    | c :: more => if isSlash c then more else rest
    | [] => []
  if isDrive hostText then return withPath fileRoot [] text
  if hostText.isEmpty then return withPath fileRoot [] afterSlash
  let host ← readHost hostText
  if host = "localhost".toList then return withPath fileRoot [] afterSlash
  return withoutHostOfDrive (withPath { fileRoot with host := some host } [] afterSlash)

/-- Read a `file` URL after its colon, or a reference to a `file` base. -/
def readFile (base : Option Url) (text : List Char) : Except ParseError Url :=
  let base := base.filter fun b => b.kind == .file
  match text with
  | first :: second :: rest =>
    if isSlash first && isSlash second then readFileHost rest else single base text
  | _ => single base text
where
  /-- The cases with at most one slash at the start. -/
  single (base : Option Url) (text : List Char) : Except ParseError Url :=
    match text, base with
    | [], none => .ok (withPath fileRoot [] [])
    | c :: rest, none =>
      .ok (withPath fileRoot [] (if isSlash c then rest else text))
    | [], some b => .ok { b with fragment := none }
    | c :: rest, some b =>
      if isSlash c then
        if startsWithDrive rest then .ok (withPath fileRoot [] rest)
        else
          match segmentsOf b with
          | drive :: _ =>
            if isKeptDrive drive then .ok (withPath fileRoot [drive] rest)
            else .ok (withPath { fileRoot with host := b.host } [] rest)
          | [] => .ok (withPath { fileRoot with host := b.host } [] rest)
      else if c == '?' then .ok (withTail b text)
      else if c == '#' then .ok { b with fragment := some (percentEncode fragmentSet rest) }
      else if startsWithDrive text then .ok (withPath fileRoot [] text)
      else .ok (withPath b (shorten .file (segmentsOf b)) text)

/-! ## Absolute and relative URLs -/

/-- Read a reference that has no scheme, or the one of a base that is no `file` URL. -/
def readRelative (base : Url) (text : List Char) : Except ParseError Url :=
  match text with
  | [] => .ok { base with fragment := none }
  | '?' :: _ => .ok (withTail base text)
  | '#' :: rest => .ok { base with fragment := some (percentEncode fragmentSet rest) }
  | c :: rest =>
    if isSlash c then
      match rest with
      | d :: more =>
        if c == '/' && d == '/' then readFromAuthority base.scheme more
        -- Slashes of mixed directions may be any number.
        else if isSlash d then readFromAuthority base.scheme (text.dropWhile isSlash)
        else .ok (withPath base [] rest)
      | [] => .ok (withPath base [] [])
    else .ok (withPath base (segmentsOf base).dropLast text)

/-- Read a URL after its scheme and colon. -/
def readAfterScheme (base : Option Url) (scheme text : List Char) : Except ParseError Url :=
  match SchemeKind.of scheme with
  | .file => readFile base text
  | .special =>
    let slashes := (text.takeWhile isSlash).length
    -- With the scheme of the base and at most one slash the text is a reference after all.
    match base.filter fun b => slashes < 2 && b.scheme == scheme with
    | some b => readRelative b text
    | none => readFromAuthority scheme (text.dropWhile isSlash)
  | .plain =>
    match text with
    | '/' :: '/' :: rest => readFromAuthority scheme rest
    | '/' :: rest =>
      .ok (withPath ⟨scheme, [], [], none, none, .segments [], none, none⟩ [] rest)
    | _ =>
      let path := percentEncode controlSet (text.takeWhile fun c => !endsPath c)
      .ok (withTail ⟨scheme, [], [], none, none, .rootless path, none, none⟩
        (text.dropWhile fun c => !endsPath c))

/-- Read a URL, relative to a base if there is one. -/
def read (base : Option Url) (text : List Char) : Except ParseError Url :=
  let text := clean text
  match splitScheme text with
  | some (scheme, rest) => readAfterScheme base scheme rest
  | none =>
    match base with
    | none => .error .relativeWithoutBase
    | some b =>
      match text with
      | '#' :: rest => .ok { b with fragment := some (percentEncode fragmentSet rest) }
      | _ =>
        -- Only a fragment can be put onto a base without structure.
        if !b.isBase then .error .relativeToRootless
        else if b.kind == .file then readFile (some b) text
        else readRelative b text

/-- Read an absolute URL. -/
def parse (s : String) : Except ParseError Url := read none s.toList

/-- Read a reference relative to a base. -/
def join (base : Url) (s : String) : Except ParseError Url := read (some base) s.toList

end DaemonRpc.Url

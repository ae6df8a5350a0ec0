import DaemonRpc.Url.Basic

/-!
# Reading paths

A path is read segment by segment onto the segments that a base gives. One dot stands for the
current segment and two dots take the last segment away; either dot may be percent-encoded. In
`file` URLs a first segment such as `C:` is a drive and is never taken away.
-/

namespace DaemonRpc.Url

/-- The written forms of a dot. -/
def isDot (text : List Char) : Bool :=
  text == ['.'] || text.map Text.lowerAscii == ['%', '2', 'e']

/-- The segment stands for the current one. -/
def isSingleDot (segment : List Char) : Bool := isDot segment

/-- The segment takes the last one away. -/
def isDoubleDot (segment : List Char) : Bool :=
  match segment with
  | '.' :: rest => isDot rest
  | a :: b :: c :: rest => isDot [a, b, c] && isDot rest
  | _ => false

/-- A letter of ASCII. -/
def isLetter (c : Char) : Bool := ('a' ≤ c && c ≤ 'z') || ('A' ≤ c && c ≤ 'Z')

/-- The segment names a drive. -/
def isDrive (segment : List Char) : Bool :=
  match segment with
  | [letter, mark] => isLetter letter && (mark == ':' || mark == '|')
  | _ => false

/-- The segment names a drive in the form it is kept in. -/
def isKeptDrive (segment : List Char) : Bool :=
  match segment with
  | [letter, mark] => isLetter letter && mark == ':'
  | _ => false

/-- The text starts with a segment that names a drive. -/
def startsWithDrive (text : List Char) : Bool :=
  match text with
  | letter :: mark :: rest =>
    isDrive [letter, mark] &&
      (match rest with
      | [] => true
      | next :: _ => next == '/' || next == '\\' || next == '?' || next == '#')
  | _ => false

/-- Take the last segment away, unless it is the drive of a `file` URL. -/
def shorten (kind : SchemeKind) (segments : List (List Char)) : List (List Char) :=
  match kind, segments with
  | .file, [drive] => if isKeptDrive drive then [drive] else []
  | _, _ => segments.dropLast

/-- Put a segment after others. -/
def pushSegment (kind : SchemeKind) (segments : List (List Char)) (segment : List Char) :
    List (List Char) :=
  match kind, segments, segment with
  -- A drive is kept with a colon, however it was marked.
  | .file, [], [letter, mark] =>
    if isDrive [letter, mark] then [[letter, ':']] else [[letter, mark]]
  | _, _, _ => segments ++ [segment]

/-- Read encoded segments onto others. The last one leaves an empty segment if it stands for a
directory. -/
def readSegments (kind : SchemeKind) (segments : List (List Char)) :
    List (List Char) → List (List Char)
  | [] => segments
  -- A last segment of dots names a directory.
  | [last] =>
    if isDoubleDot last then shorten kind segments ++ [[]]
    else if isSingleDot last then segments ++ [[]]
    else pushSegment kind segments last
  | segment :: next :: more =>
    if isDoubleDot segment then readSegments kind (shorten kind segments) (next :: more)
    else if isSingleDot segment then readSegments kind segments (next :: more)
    else readSegments kind (pushSegment kind segments segment) (next :: more)

/-- The character separates segments. -/
def isSeparator (kind : SchemeKind) (c : Char) : Bool := c == '/' || (kind.isSpecial && c == '\\')

/-- In a `file` URL the empty segments at the start go away, but one segment stays. -/
def dropEmptyStart (kind : SchemeKind) (segments : List (List Char)) : List (List Char) :=
  match kind with
  | .file =>
    match segments.dropWhile (·.isEmpty) with
    | [] => [[]]
    | kept => kept
  | _ => segments

/-- Read the text of a path, without its first slash, onto the segments of a base. -/
def readPath (kind : SchemeKind) (base : List (List Char)) (text : List Char) : Path :=
  let pieces := (Form.pieces (isSeparator kind) text).map (percentEncode pathSet)
  .segments (dropEmptyStart kind (readSegments kind base pieces))

end DaemonRpc.Url

import DaemonRpc.Json.Parser
import DaemonRpc.Error
import DaemonRpc.Text.Blank

/-!
# Lines of a body

A `Framer` cuts octets that come in chunks into lines of text. Chunks may end anywhere, also inside
a character. A line ends with a line feed, or where the body ends; blanks around it do not count,
and a line of blanks is none.
-/

namespace DaemonRpc

/-- A framer between two chunks. -/
structure Framer where
  /-- The text of the line that is not finished. -/
  text : List Char := []
  /-- The octets of the character that is not finished. -/
  held : List UInt8 := []
  /-- How many characters of the text are known to hold no line feed. -/
  scanned : Nat := 0
  deriving DecidableEq, Repr

namespace Framer

/-- The parts before and after the last line feed. -/
def splitLast : List Char → Option (List Char × List Char)
  | [] => none
  | c :: rest =>
    match splitLast rest with
    | some (before, after) => some (c :: before, after)
    | none => if c = '\n' then some ([], rest) else none

/-- The pieces between line feeds; there is one more than line feeds. -/
def pieces : List Char → List (List Char)
  | [] => [[]]
  | c :: rest =>
    match pieces rest with
    | [] => [[c]]
    | piece :: more => if c = '\n' then [] :: piece :: more else (c :: piece) :: more

/-- The line of a text, none if it is blank. -/
def line? (text : List Char) : Option String :=
  let trimmed := Text.trimChars text
  if trimmed.isEmpty then none else some (String.ofList trimmed)

/-- The lines of a text that ends where a line does. -/
def linesOf (text : List Char) : List String := (pieces text).filterMap line?

/-- Take a chunk; returns the lines that end in it. -/
def push (f : Framer) (chunk : List UInt8) : Framer × List String :=
  let (decoded, held) := Utf8.feed f.held chunk
  let text := f.text ++ decoded
  -- The text known before holds no line feed, so only the new text is searched.
  match splitLast (text.drop f.scanned) with
  | none => (⟨text, held, text.length⟩, [])
  | some (before, after) =>
    (⟨after, held, after.length⟩, linesOf (text.take f.scanned ++ before))

/-- The body ends; returns the line that ends with it. -/
def finish (f : Framer) : Framer × Option String :=
  ({}, line? (f.text ++ Utf8.flush f.held))

end Framer

/-- The record in a line. -/
def parseRecord (line : String) : Except Error Json.Value :=
  (Json.parseText line).mapError .decode

end DaemonRpc

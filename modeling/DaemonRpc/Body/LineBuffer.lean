import DaemonRpc.Body.Framer
import DaemonRpc.Text.Validation

/-!
# The framer as it is stored

A `LineBuffer` stores what a `Framer` is about: the text as octets that are addressed by their
offset, and the octets of the unfinished character. A chunk is decoded by a loop of strict checks
over the octets that are waiting. An offset that does not stand between two characters is an error
of the program; here such a use has no result.
-/

namespace DaemonRpc

/-- How many octets a text takes. -/
def octetLength (text : List Char) : Nat := (Utf8.encode text).length

/-- The parts of a text before and after an offset in octets; none if the offset is not between two
characters of the text. -/
def splitOctets (offset : Nat) : List Char → Option (List Char × List Char)
  | [] => if offset = 0 then some ([], []) else none
  | c :: text =>
    let width := (String.utf8EncodeChar c).length
    if offset = 0 then some ([], c :: text)
    else if width ≤ offset then
      (splitOctets (offset - width) text).map fun (before, after) => (c :: before, after)
    else none

/-- A line buffer between two chunks. -/
structure LineBuffer where
  /-- The text of the line that is not finished. -/
  text : List Char := []
  /-- The octets of the character that is not finished. -/
  pending : List UInt8 := []
  /-- How many octets of the text are known to hold no line feed. -/
  scanned : Nat := 0
  deriving DecidableEq, Repr

namespace LineBuffer

/-- One round of the decoding loop. -/
structure Round where
  /-- Where in the waiting octets the round begins. -/
  start : Nat
  /-- The text that it adds. -/
  text : List Char
  /-- Where the octets begin that it leaves. -/
  next : Nat
  /-- The loop stops, whatever is left. -/
  stops : Bool
  deriving DecidableEq, Repr

/-- The round of the loop that begins at `start`. -/
def round (octets : List UInt8) (start : Nat) : Round :=
  let left := octets.drop start
  match Utf8.check left with
  -- Octets that are well formed have no replacement in their text.
  | .wellFormed => ⟨start, Utf8.lossy left, octets.length, false⟩
  | .malformed valid bad =>
    ⟨start, Utf8.lossy (left.take valid) ++ [Utf8.replacement], start + valid + bad, false⟩
  -- What is left waits for the next chunk.
  | .incomplete valid => ⟨start, Utf8.lossy (left.take valid), start + valid, true⟩

/-- A round that does not stop the loop goes forward. -/
theorem lt_next_of_round {octets : List UInt8} {start : Nat} (h : start < octets.length)
    (hs : (round octets start).stops = false) : start < (round octets start).next := by
  unfold round at hs ⊢
  cases hc : Utf8.check (octets.drop start) with
  | wellFormed => simpa [hc] using h
  | malformed valid bad =>
    have := Utf8.pos_of_checkFrom hc
    simp only [hc]
    omega
  | incomplete valid => simp [hc] at hs

/-- The rounds of the loop from `start` on. -/
def rounds (octets : List UInt8) (start : Nat) : List Round :=
  if h : start < octets.length then
    let r := round octets start
    if hs : r.stops = true then [r]
    else
      have := lt_next_of_round h (Bool.eq_false_iff.2 hs)
      r :: rounds octets r.next
  else []
termination_by octets.length - start

/-- Where the octets begin that rounds from `start` on leave. -/
def reached (start : Nat) (done : List Round) : Nat := (done.getLast?.map (·.next)).getD start

/-- Decode a chunk after the octets that are waiting. -/
def decode (b : LineBuffer) (chunk : List UInt8) : LineBuffer :=
  let octets := b.pending ++ chunk
  let done := rounds octets 0
  { b with text := b.text ++ done.flatMap (·.text), pending := octets.drop (reached 0 done) }

/-- Take a chunk; returns the lines that end in it. -/
def push (b : LineBuffer) (chunk : List UInt8) : Option (LineBuffer × List String) := do
  let decoded := b.decode chunk
  -- The text known before holds no line feed, so only what comes after it is searched.
  let (_, fresh) ← splitOctets b.scanned decoded.text
  match Framer.splitLast fresh with
  | none => some ({ decoded with scanned := octetLength decoded.text }, [])
  | some (before, _) =>
    let (complete, rest) ← splitOctets (b.scanned + octetLength before + 1) decoded.text
    some (⟨rest, decoded.pending, octetLength rest⟩, Framer.linesOf complete)

/-- The body ends; returns the line that ends with it. -/
def finish (b : LineBuffer) : LineBuffer × Option String :=
  ({}, Framer.line? (b.text ++ Utf8.flush b.pending))

end LineBuffer

end DaemonRpc

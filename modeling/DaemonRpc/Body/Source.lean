import DaemonRpc.Classification

/-!
# Bodies of answers

A body comes in one of three kinds and delivers frames one after the other, with waits between
them. What it will deliver is a list of steps. `read` takes the steps up to the first that concerns
a reader of octets: data that is not empty, a report of a failure in a trailer, a failure of the
body itself, a wait, or the end.
-/

namespace DaemonRpc

/-- The kind of a body. -/
inductive BodyKind where
  /-- A stream of chunks. -/
  | iterable
  /-- A reader with a buffer. -/
  | reader
  /-- A stream of frames, the only kind with trailers. -/
  | native
  deriving DecidableEq, Repr

/-- The text of a kind in diagnostics. -/
def BodyKind.display : BodyKind → String
  | .iterable => "BodySource::AlreadyIterable"
  | .reader => "BodySource::ReaderBased"
  | .native => "BodySource::NativeAsyncIterable"

/-- One delivery of a body. -/
inductive Frame where
  | data (octets : List UInt8)
  | trailers (fields : Headers)
  | failure (cause : Error)
  deriving DecidableEq, Repr

/-- What a body does next. -/
inductive BodyStep where
  | frame (f : Frame)
  /-- Not ready for one poll. -/
  | pause
  /-- Never ready again. -/
  | stall
  deriving DecidableEq, Repr

/-- A body that is not read to its end. -/
structure BodySource where
  /-- Its kind. -/
  kind : BodyKind
  /-- What it will do. -/
  steps : List BodyStep
  /-- Something is held for it until it is let go of. A body for which nothing is held counts as let
  go of when it is handed over. -/
  tracked : Bool := true
  deriving DecidableEq, Repr

namespace BodySource

/-- A body without content. -/
def empty : BodySource := ⟨.iterable, [], false⟩

/-- How many bodies are let go of when this one is handed over. -/
def releasesAtOnce (b : BodySource) : Nat := (!b.tracked).toNat

/-- The size of the buffer through which a reader is read. -/
def bufferSize : Nat := 4096

/-- Cut octets where the buffer is full, which has `room` left at first; also what room is left. -/
def cutReads (room : Nat) (octets : List UInt8) : List (List UInt8) × Nat :=
  -- A full buffer is replaced by a new one.
  let space := if room = 0 then bufferSize else room
  if octets.length ≤ space then ([octets], space - octets.length)
  else
    let (more, left) := cutReads 0 (octets.drop space)
    (octets.take space :: more, left)
termination_by octets.length
decreasing_by
  have : 0 < space := by simp only [space, bufferSize]; split <;> omega
  rw [List.length_drop]
  omega

/-- What a reader does, whose failures are failures of input and which skips empty data. -/
def readerSteps (room : Nat) : List BodyStep → List BodyStep
  | [] => []
  | .frame (.data []) :: rest => readerSteps room rest
  | .frame (.data (b :: octets)) :: rest =>
    let (pieces, left) := cutReads room (b :: octets)
    pieces.map (fun piece => .frame (.data piece)) ++ readerSteps left rest
  | .frame (.trailers _) :: rest => readerSteps room rest
  | .frame (.failure e) :: rest => .frame (.failure (.io e.message)) :: readerSteps room rest
  | step :: rest => step :: readerSteps room rest

/-- The step is possible for a stream of chunks. -/
def isIterableStep : BodyStep → Bool
  | .frame (.trailers _) => false
  | _ => true

/-- The body of a kind that does these steps. -/
def ofSteps (kind : BodyKind) (steps : List BodyStep) : BodySource :=
  match kind with
  | .iterable => ⟨kind, steps.filter isIterableStep, true⟩
  | .reader => ⟨kind, readerSteps bufferSize steps, true⟩
  | .native => ⟨kind, steps, true⟩

end BodySource

/-- What a reader of octets meets next. -/
inductive Reading where
  /-- Nothing yet. -/
  | pending (rest : List BodyStep)
  | chunk (octets : List UInt8) (rest : List BodyStep)
  /-- The daemon reports a failure in a trailer. -/
  | report (text : String)
  | failure (cause : Error)
  | finished
  deriving DecidableEq, Repr

/-- Read up to what a reader of octets meets next. -/
def Reading.ofSteps : List BodyStep → Reading
  | [] => .finished
  | .pause :: rest => .pending rest
  | .stall :: rest => .pending (.stall :: rest)
  | .frame (.data []) :: rest => ofSteps rest
  | .frame (.data (b :: octets)) :: rest => .chunk (b :: octets) rest
  | .frame (.trailers fields) :: rest =>
    match streamReport? fields with
    | some text => .report text
    | none => ofSteps rest
  | .frame (.failure e) :: _ => .failure e

/-- What remains after a chunk is less than there was. -/
theorem Reading.length_of_chunk {steps rest : List BodyStep} {octets : List UInt8}
    (h : Reading.ofSteps steps = .chunk octets rest) : rest.length < steps.length := by
  fun_induction Reading.ofSteps steps with
  | case4 more ih => exact Nat.lt_succ_of_lt (ih h)
  | case5 b more tail =>
    simp only [Reading.chunk.injEq] at h
    rw [← h.2, List.length_cons]
    omega
  | case7 fields more _ ih => exact Nat.lt_succ_of_lt (ih h)
  | _ => simp_all

end DaemonRpc

import DaemonRpc.Body.ByteView
import DaemonRpc.Body.Framer
import DaemonRpc.Request

/-!
# Reading a body as records

A `RecordView` reads a body as lines of JSON. It delivers the lines it has before it reads on, and
ends with the first error. A failure that the daemon reports comes after the records before it.
-/

namespace DaemonRpc

/-- A body while it is read as records. -/
structure RecordView where
  /-- The octets of the body. -/
  bytes : ByteView
  /-- More octets are to be read. -/
  reading : Bool := true
  /-- Cuts the octets into lines. -/
  framer : Framer := {}
  /-- Lines that are to be delivered. -/
  ready : List String := []
  /-- An error that comes after these lines. -/
  deferred : Option Error := none
  /-- A change to each record. -/
  transform : Option RecordTransform := none
  /-- Why a line was refused. -/
  refusal : Option String := none

namespace RecordView

/-- A view that has read nothing. -/
def ofBytes (bytes : ByteView) (transform : Option RecordTransform) : RecordView :=
  { bytes, transform }

/-- How the reading ended; a refused line counts more than the end of the octets. -/
def termination (v : RecordView) : Option Termination :=
  v.refusal.map .failed <|> v.bytes.termination

/-- Let go of the body and of everything that would follow. -/
def stop (v : RecordView) : RecordView :=
  { v with bytes := v.bytes.close, reading := false, ready := [], deferred := none }

/-- The record in a line after the change to records. -/
def record (v : RecordView) (line : String) : Except Error Json.Value := do
  let value ← parseRecord line
  match v.transform with
  | some f => f value
  | none => .ok value

/-- Deliver a line, after which others are ready. -/
def deliver (v : RecordView) (line : String) (rest : List String) :
    Poll Json.Value × RecordView :=
  match v.record line with
  | .ok value => (.item value, { v with ready := rest })
  | .error e => (.failed e, { v.stop with refusal := some e.message })

/-- The state after a chunk. -/
def withChunk (v : RecordView) (bytes : ByteView) (octets : List UInt8) : RecordView :=
  let (framer, lines) := v.framer.push octets
  { v with bytes, framer, ready := lines }

/-- The state after the last octets, to be followed by an error if there is one. -/
def atEnd (v : RecordView) (bytes : ByteView) (error : Option Error) : RecordView :=
  let (framer, line) := v.framer.finish
  { v with bytes := bytes.close, reading := false, framer, ready := line.toList, deferred := error }

/-- A bound on how often the view goes on before it delivers or ends. -/
def remaining (v : RecordView) : Nat :=
  v.bytes.remaining + 2 * v.reading.toNat + v.deferred.isSome.toNat

theorem remaining_close (v : ByteView) : v.close.remaining = 0 := rfl

/-- Ask for the next record, given with what reason the signal of the call has fired. -/
def poll (v : RecordView) (fired : Option AbortReason) : Poll Json.Value × RecordView :=
  match v.ready, v.deferred with
  | line :: rest, _ => v.deliver line rest
  | [], some e => (.failed e, v.stop)
  | [], none =>
    if v.reading then
      match h : v.bytes.poll fired with
      | (.pending, w) => (.pending, { v with bytes := w })
      | (.item octets, w) =>
        have := ByteView.remaining_of_item h
        poll (v.withChunk w octets) fired
      | (.failed e, w) =>
        -- The daemon wrote whole lines before it failed, the last one perhaps without its end.
        if e.isStreamTrailer then poll (v.atEnd w (some e)) fired
        else (.failed e, { v with bytes := w }.stop)
      | (.finished, w) => poll (v.atEnd w none) fired
    else (.finished, v)
termination_by v.remaining
decreasing_by
  all_goals simp only [remaining, withChunk, atEnd, remaining_close]
  all_goals simp_all
  all_goals omega

end RecordView

end DaemonRpc

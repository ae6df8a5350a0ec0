import DaemonRpc.Body.RecordView
import DaemonRpc.Command.Records

/-!
# Streams

A body that is read item by item: as octets, as records, or as records of a type. A record that is
not of the type is an error, after which the stream goes on.
-/

namespace DaemonRpc

/-- A body while it is read item by item. -/
inductive Stream where
  | bytes (view : ByteView)
  | records (view : RecordView)
  | typed (type : RecordType) (view : RecordView)

/-- An item of a stream. -/
inductive Item where
  | octets (octets : List UInt8)
  | record (value : Json.Value)
  | typed (record : TypedRecord)

namespace Stream

/-- Begin to read a body. -/
def ofBytes (kind : StreamKind) (view : ByteView) (transform : Option RecordTransform) : Stream :=
  match kind with
  | .bytes => .bytes view
  | .records => .records (.ofBytes view transform)
  | .typed type => .typed type (.ofBytes view transform)

/-- The octets that the stream reads. -/
def source : Stream → ByteView
  | .bytes view => view
  | .records view | .typed _ view => view.bytes

/-- How the reading ended; streams of records of a type do not tell. -/
def termination : Stream → Option Termination
  | .bytes view => view.termination
  | .records view => view.termination
  | .typed _ _ => none

/-- Let go of the body. -/
def close : Stream → Stream
  | .bytes view => .bytes view.close
  | .records view => .records view.stop
  | .typed type view => .typed type view.stop

/-- Change the item of a poll. -/
def mapPoll {α β : Type} (f : α → β) : Poll α → Poll β
  | .pending => .pending
  | .item a => .item (f a)
  | .failed e => .failed e
  | .finished => .finished

/-- Read a record as one of a type. -/
def readTyped (type : RecordType) : Poll Json.Value → Poll Item
  | .item v =>
    match type.read v with
    | .ok record => .item (.typed record)
    | .error e => .failed e
  | other => mapPoll .record other

/-- Ask for the next item, given with what reason the signal of the call has fired. -/
def poll (s : Stream) (fired : Option AbortReason) : Poll Item × Stream :=
  match s with
  | .bytes view =>
    let (answer, view) := view.poll fired
    (mapPoll .octets answer, .bytes view)
  | .records view =>
    let (answer, view) := view.poll fired
    (mapPoll .record answer, .records view)
  | .typed type view =>
    let (answer, view) := view.poll fired
    (readTyped type answer, .typed type view)

/-- How much a stream can still answer before it waits or is finished. -/
def rank : Stream → Nat × Nat
  | .bytes view => (view.remaining + view.isOpen.toNat, 0)
  | .records view | .typed _ view => (view.remaining, view.ready.length)

/-- The text of a stream in diagnostics, if it has one. -/
def display? : Stream → Option String
  | .bytes view => some view.display
  | .records view =>
    some (displayRecord "NdjsonStream"
      [displayField "termination" (displayOption Termination.display view.termination)])
  | .typed _ _ => none

end Stream

end DaemonRpc

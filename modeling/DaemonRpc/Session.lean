import DaemonRpc.Call
import DaemonRpc.Signal.Composition

/-!
# Sessions

Several calls of one client at once, each in a slot under a name, with controllers that may abort
them and one clock. Nothing happens by itself: a step starts or polls what is in one slot, aborts a
controller or moves the clock. The signal of a call follows the controller and the timeout that the
call was given, under a key of its own, and is cleared as soon as the call is over; a body is let
go of exactly when its reading ends or its slot is dropped.
-/

namespace DaemonRpc

/-- The key of a call: the name of its slot, and how many calls that had before. -/
abbrev CallKey := String × Nat

/-- What a slot holds. -/
inductive Activity where
  /-- A call that waits. -/
  | calling (call : Call) (goal : Goal)
  /-- A body that is read as a whole. -/
  | reading (form : Form) (view : ByteView) (collected : List UInt8)
  /-- A body of which all records are read. -/
  | gathering (view : RecordView) (collected : List Json.Value)
  /-- An answer whose body is not read. -/
  | response (response : Response)
  /-- A body that is read item by item. -/
  | stream (stream : Stream)

namespace Activity

/-- The body that the activity holds. -/
def body? : Activity → Option BodySource
  | calling call _ => call.body?
  | reading _ view _ => view.source
  | gathering view _ => view.bytes.source
  | response r => some r.body
  | stream s => s.source.source

/-- The call is not over. -/
def isLive : Activity → Bool
  | calling _ _ => true
  | a => a.body?.isSome

/-- How many bodies are let go of with the activity. -/
def releases (a : Activity) : Nat := (a.body?.any (·.tracked)).toNat

end Activity

/-- What becomes of a call. -/
inductive Outcome where
  | pending
  | failed (cause : Error)
  | answered (response : Response)
  | opened (stream : Stream)
  | done (content : Content)

/-- What one poll of an activity comes to. -/
structure Turn where
  /-- What became of the call. -/
  outcome : Outcome
  /-- What the slot holds then. -/
  next : Option Activity
  /-- How many bodies were let go of. -/
  released : Nat := 0

namespace Turn

/-- The turn that ends with a result, after a body was read by a view. -/
def ofResult (view : ByteView) : Except Error Content → Turn
  | .ok content => ⟨.done content, none, view.isTracked.toNat⟩
  | .error e => ⟨.failed e, none, view.isTracked.toNat⟩

/-- Read a body as a whole, as far as it is ready. -/
def read (fired : Option AbortReason) (form : Form) (view : ByteView) (collected : List UInt8) :
    Turn :=
  match view.collect fired collected with
  | (.pending, view, collected) => ⟨.pending, some (.reading form view collected), 0⟩
  | (.done result, _, _) => ofResult view (result.bind form.read)

/-- Read all records of a body, as far as it is ready. -/
def gather (fired : Option AbortReason) (view : RecordView) (collected : List Json.Value) : Turn :=
  match view.collect fired collected with
  | (.pending, view, collected) => ⟨.pending, some (.gathering view collected), 0⟩
  | (.done result, _, _) => ofResult view.bytes (result.map .records)

/-- Go on with an answer. -/
def ofResponse (fired : Option AbortReason) (goal : Goal) (response : Response) : Turn :=
  match goal with
  | .response => ⟨.answered response, some (.response response), 0⟩
  | .whole form => read fired form response.view []
  | .stream kind =>
    let stream := response.stream kind
    ⟨.opened stream, some (.stream stream), 0⟩

/-- Go on with a call that has come so far. -/
def ofProgress (fired : Option AbortReason) (goal : Goal) : CallProgress → Turn
  | .pending call => ⟨.pending, some (.calling call goal), 0⟩
  | .failed e => ⟨.failed e, none, 0⟩
  | .answered response => ofResponse fired goal response

/-- The turn in which as many bodies more were let go of. -/
def andReleased (turn : Turn) (released : Nat) : Turn :=
  { turn with released := turn.released + released }

/-- Poll an activity that waits. -/
def ofActivity (fired : Option AbortReason) : Activity → Turn
  | .calling call goal =>
    let (progress, released) := call.poll fired
    (ofProgress fired goal progress).andReleased released
  | .reading form view collected => read fired form view collected
  | .gathering view collected => gather fired view collected
  | a => ⟨.pending, some a, 0⟩

end Turn

/-- A slot. -/
structure Slot where
  /-- How many calls it had before. -/
  serial : Nat := 0
  /-- What it holds. -/
  activity : Option Activity := none

/-- Calls of one client. -/
structure Session where
  /-- The configuration of the client. -/
  config : ClientConfig
  /-- What identifies requests. -/
  requestId : String
  /-- The signals and the clock. -/
  store : Signal.Store CallKey := {}
  /-- The slots by name. -/
  slots : List (String × Slot) := []
  /-- How many bodies were let go of. -/
  released : Nat := 0

/-- A body that comes without a call, and how it is read. -/
structure LooseBody where
  body : BodySource
  /-- It has a signal of its own, from a controller and a timeout. -/
  signal : Option (Option Nat × Option Duration)
  /-- A failure that was reported before the body. -/
  headReport : Option String
  kind : StreamKind
  transform : Option RecordTransform

/-- A step of a session. -/
inductive SessionStep where
  /-- Start a call; the resource may be the error of building it. -/
  | call (slot : String) (resource : Except Error Resource) (options : RequestOptions)
      (goal : Goal) (transport : Transport)
  | command (slot : String) (command : Command) (options : RequestOptions)
      (transport : Transport)
  /-- Begin to read a body that comes without a call. -/
  | loose (slot : String) (body : LooseBody)
  /-- Poll what waits. -/
  | poll (slot : String)
  /-- Begin to read the body of an answer item by item. -/
  | openBody (slot : String) (kind : StreamKind)
  /-- Begin to read the rest of a body as a whole. -/
  | read (slot : String) (form : Form)
  /-- Ask a stream for its next item. -/
  | next (slot : String)
  /-- Ask a stream until it waits or is finished. -/
  | drain (slot : String)
  | drop (slot : String)
  | abort (controller : Nat)
  | advance (time : Duration)

/-- The answer of a step. -/
inductive SessionAnswer where
  | done
  | outcome (outcome : Outcome)
  /-- A body that came without a call is being read. -/
  | opened (stream : Stream) (kind : BodyKind)
  | item (answer : Poll Item)
  | items (answers : List (Poll Item))

namespace Session

/-- A session with so many controllers. -/
def start (config : ClientConfig) (requestId : String) (controllers : Nat) : Session where
  config := config
  requestId := requestId
  store := (List.range controllers).foldl Signal.Store.addController {}

/-- The slot of a name. -/
def slot (s : Session) (name : String) : Slot := (s.slots.lookup name).getD {}

/-- Put a slot under a name. -/
def putSlot (name : String) (slot : Slot) : List (String × Slot) → List (String × Slot)
  | [] => [(name, slot)]
  | (n, old) :: rest => if n = name then (n, slot) :: rest else (n, old) :: putSlot name slot rest

/-- The key of the call in a slot. -/
def key (s : Session) (name : String) : CallKey := (name, (s.slot name).serial)

/-- The reason with which the signal of the call in a slot has fired. -/
def fired (s : Session) (name : String) : Option AbortReason :=
  s.store.reason? (.merged (s.key name))

/-- A slot holds something else now, and bodies were let go of. The signal of its call is cleared
if that is over.

No activity carries the signal: it is held from the start of a call as long as the slot waits for an
answer or has a body. This stands for each way in which an owner of the signal lets go of it. A call
that fails, when it is dispatched, while it waits or while its refused answer is read, leaves
nothing in its slot; neither does an answer, a reading or a stream that is dropped, nor a body that
was read as a whole. A view of octets gives up its body at the end, with an error, and when the
signal fires, and a view of records also at a line that is refused, before the body has ended; the
stream stays in its slot without a body. An answer that is opened hands its body on, and with it the
signal. -/
def settle (s : Session) (name : String) (activity : Option Activity) (released : Nat) :
    Session :=
  { s with
    store := if activity.any (·.isLive) then s.store else s.store.clear (s.key name)
    slots := putSlot name { s.slot name with activity } s.slots
    released := s.released + released }

/-- A turn of the activity in a slot. -/
def take (s : Session) (name : String) (turn : Turn) : Session × SessionAnswer :=
  (s.settle name turn.next turn.released, .outcome turn.outcome)

/-- Drop what a slot holds. -/
def drop (s : Session) (name : String) : Session :=
  s.settle name none (((s.slot name).activity.map (·.releases)).getD 0)

/-- Drop what a slot holds and prepare it for another call. -/
def renew (s : Session) (name : String) : Session :=
  let s := s.drop name
  let slot := s.slot name
  { s with slots := putSlot name ⟨slot.serial + 1, none⟩ s.slots }

/-- Give the call in a slot its signal. -/
def compose (s : Session) (name : String) (controller : Option Nat) (timeout : Option Duration) :
    Session :=
  { s with
    store := s.store.compose (s.key name) (controller.toList.map .controller) timeout }

/-- Start a call in a slot; also what was handed to the transport. -/
def call (s : Session) (name : String) (resource : Except Error Resource)
    (options : RequestOptions) (goal : Goal) (transport : Transport) :
    Session × SessionAnswer × Option Outgoing :=
  let s := s.renew name
  match resource.bind fun r => RequestSpec.build s.config r options with
  | .error e => (s, .outcome (.failed e), none)
  | .ok spec =>
    -- The timer runs from here on, and a controller may have been aborted before.
    let s := s.compose name spec.signal spec.timeout
    let departure := Call.start (s.fired name) spec s.requestId transport
    let turn := (Turn.ofProgress (s.fired name) goal departure.progress).andReleased
      departure.released
    let (s, answer) := s.take name turn
    (s, answer, departure.handed)

/-- Begin to read a body that comes without a call. -/
def openLoose (s : Session) (name : String) (loose : LooseBody) : Session × SessionAnswer :=
  let s := s.renew name
  let s := match loose.signal with
    | none => s
    | some (controller, timeout) => s.compose name controller timeout
  let view : ByteView := { source := some loose.body, headReport := loose.headReport }
  let stream := Stream.ofBytes loose.kind view loose.transform
  (s.settle name (some (.stream stream)) loose.body.releasesAtOnce,
    .opened stream loose.body.kind)

/-- Ask the stream in a slot. -/
def ask {α : Type} (s : Session) (name : String)
    (question : Stream → Option AbortReason → α × Stream) (answer : α → SessionAnswer) :
    Session × SessionAnswer :=
  match (s.slot name).activity with
  | some (.stream stream) =>
    let (a, next) := question stream (s.fired name)
    -- A body is let go of once, when the view that had it has it no more.
    let released := stream.source.isTracked.toNat - next.source.isTracked.toNat
    (s.settle name (some (.stream next)) released, answer a)
  | _ => (s, .done)

/-- What begins to be read as a whole. -/
def beginRead (form : Form) : Activity → Option Activity
  | .response r => some (.reading form r.view [])
  | .stream (.bytes view) => some (.reading .octets view [])
  | .stream (.records view) => some (.gathering view [])
  | _ => none

/-- One step: its answer and what went out during it. -/
def step (s : Session) : SessionStep → Session × SessionAnswer × Option Outgoing
  | .call name resource options goal transport =>
    let called := s.call name resource options goal transport
    (called.1, called.2.1, called.2.2.filter transport.sends)
  | .command name command options transport =>
    let called := s.call name (.ok (.path command.path))
      { command.options options with method := some "POST" } command.goal transport
    (called.1, called.2.1, called.2.2.filter transport.sends)
  | .loose name body =>
    let (s, answer) := s.openLoose name body
    (s, answer, none)
  | .poll name =>
    match (s.slot name).activity with
    | none => (s, .done, none)
    | some activity =>
      let (s, answer) := s.take name (Turn.ofActivity (s.fired name) activity)
      (s, answer, none)
  | .openBody name kind =>
    match (s.slot name).activity with
    | some (.response r) =>
      let stream := r.stream kind
      (s.settle name (some (.stream stream)) 0, .outcome (.opened stream), none)
    | _ => (s, .done, none)
  | .read name form =>
    match (s.slot name).activity.bind (beginRead form) with
    | none => (s, .done, none)
    | some activity =>
      let (s, answer) := s.take name (Turn.ofActivity (s.fired name) activity)
      (s, answer, none)
  | .next name =>
    let (s, answer) := s.ask name Stream.poll .item
    (s, answer, none)
  | .drain name =>
    let (s, answer) := s.ask name Stream.drain .items
    (s, answer, none)
  | .drop name => (s.drop name, .done, none)
  | .abort controller => ({ s with store := (s.store.abort controller).1 }, .done, none)
  | .advance time => ({ s with store := (s.store.advance time).1 }, .done, none)

/-- Steps one after the other. -/
def runSteps (s : Session) (steps : List SessionStep) : Session :=
  steps.foldl (fun s step => (s.step step).1) s

/-- The text in diagnostics of the stream or answer in a slot, or else of the client. -/
def display (s : Session) (name : String) : String :=
  match (s.slot name).activity with
  | some (.response r) => r.display s.requestId
  | some (.stream stream) => stream.display?.getD s.config.displayClient
  | _ => s.config.displayClient

/-- How the reading of the stream in a slot ended. -/
def termination (s : Session) (name : String) : Option Termination :=
  match (s.slot name).activity with
  | some (.stream stream) => stream.termination
  | _ => none

end Session

end DaemonRpc

import DaemonRpc.Body.Progress
import DaemonRpc.Command.Basic

/-!
# Calls

A call hands its request to a transport once and waits for the reply, unless its signal fires. The
call does not look into the body of its request: what a body means for the reply is up to the
transport. An answer with a failure status is read to its end, under the same signal, and becomes an
error. A `Call` is a call that waits; `Call.poll` looks whether the wait is over.
-/

namespace DaemonRpc

/-- An answer whose body is not read. -/
structure Response where
  /-- The status. -/
  status : Nat
  /-- The header fields. -/
  headers : Headers
  /-- The URL that answered. -/
  url : Url
  /-- The body. -/
  body : BodySource
  /-- The change to each record that the call asked for. -/
  transform : Option RecordTransform

namespace Response

/-- The status means success. -/
def isSuccess (r : Response) : Bool := 200 ≤ r.status && r.status < 300

/-- The body, to be read as octets. -/
def view (r : Response) : ByteView :=
  { source := some r.body, headReport := streamReport? r.headers }

/-- The body, to be read item by item. -/
def stream (r : Response) (kind : StreamKind) : Stream := .ofBytes kind r.view r.transform

/-- The text of an answer in diagnostics. -/
def display (r : Response) (requestId : String) : String :=
  displayRecord "Response"
    [displayField "status" (toString r.status), displayField "url" (Text.quote r.url.toText),
      displayField "headers" r.headers.display, displayField "body" r.body.kind.display,
      displayField "request_id" (Text.quote requestId)]

end Response

/-- A request as it is handed to a transport. -/
structure Outgoing where
  /-- The method. -/
  method : String
  /-- The URL. -/
  url : Url
  /-- The header fields. -/
  headers : Headers
  /-- The body. -/
  body : RequestBody

/-- The field that identifies a request. -/
def requestIdName : String := "x-request-id"

/-- The request as it is handed to a transport: it is identified if it is not yet. -/
def RequestSpec.outgoing (spec : RequestSpec) (requestId : String) : Outgoing where
  method := spec.method
  url := spec.url
  headers :=
    if spec.headers.contains requestIdName then spec.headers
    else spec.headers.insert requestIdName (Utf8.ofString requestId)
  body := spec.body

/-- What comes back for a request. -/
structure Reply where
  /-- How often the wait for it is polled before it comes. -/
  delay : Nat
  /-- The answer, without the change to its records, or why there is none; the URL of the request
  stands for one that is not given. -/
  outcome : Except Error (Nat × Headers × Option Url × BodySource)

/-- What comes back, for the request of a call. -/
def Reply.response (reply : Reply) (spec : RequestSpec) : Except Error Response :=
  reply.outcome.map fun (status, headers, url, body) =>
    { status, headers, url := url.getD spec.url, body, transform := spec.transform }

/-- What takes requests. -/
structure Transport where
  /-- What comes back for a request that is handed over. -/
  reply : Outgoing → Reply
  /-- The request goes out. -/
  sends : Outgoing → Bool

/-- The transport that collects the body of a request and then has this reply. If the body fails,
nothing goes out, and the failure is the reply. -/
def Transport.ofReply (reply : Reply) : Transport where
  reply request :=
    match request.body.materialize with
    | .ok _ => reply
    | .error e => ⟨0, .error e⟩
  sends request := request.body.materialize.isOk

instance : Coe Reply Transport := ⟨Transport.ofReply⟩

/-- How a call takes failures. -/
structure FailurePolicy where
  /-- An answer with a failure status is an error. -/
  throwHttpErrors : Bool
  /-- The caller's own reading of failures. -/
  hook : Option ErrorHook

/-- A call that waits. -/
inductive Call where
  /-- For the answer. -/
  | sending (delay : Nat) (outcome : Except Error Response) (policy : FailurePolicy)
  /-- For the rest of the body of an answer with a failure status. -/
  | refused (status : Nat) (headers : Headers) (view : ByteView) (collected : List UInt8)
      (policy : FailurePolicy)

/-- How far a call has come. -/
inductive CallProgress where
  | pending (call : Call)
  | failed (cause : Error)
  | answered (response : Response)

namespace Call

/-- The error of an answer with a failure status, given how the reading of its body ended. A body
that cannot be read counts as empty, unless the call ended while it was read. -/
def refusal (status : Nat) (headers : Headers) (policy : FailurePolicy) :
    Except Error (List UInt8) → Error
  | .ok body => (ErrorAnswer.mk status headers body).classify policy.hook
  | .error e =>
    if e.isAborted || e.isTimeout then e
    else (ErrorAnswer.mk status headers []).classify policy.hook

/-- Read the body of an answer with a failure status as far as it is ready; also how many bodies are
let go of. -/
def readRefused (fired : Option AbortReason) (status : Nat) (headers : Headers)
    (view : ByteView) (collected : List UInt8) (policy : FailurePolicy) : CallProgress × Nat :=
  match view.collect fired collected with
  | (.pending, view, collected) => (.pending (.refused status headers view collected policy), 0)
  | (.done result, _, _) => (.failed (refusal status headers policy result), view.isTracked.toNat)

/-- Take an answer. -/
def receive (response : Response) (policy : FailurePolicy) : CallProgress × Nat :=
  let (progress, released) :=
    -- The body of an accepted answer stays unread.
    if response.isSuccess || !policy.throwHttpErrors then (.answered response, 0)
    else
      readRefused none response.status response.headers { source := some response.body } [] policy
  (progress, released + response.body.releasesAtOnce)

/-- Look whether the wait is over, given with what reason the signal of the call has fired; also how
many bodies are let go of. -/
def poll (fired : Option AbortReason) : Call → CallProgress × Nat
  | .refused status headers view collected policy =>
    readRefused fired status headers view collected policy
  | .sending delay outcome policy =>
    -- A signal that has fired counts more than an answer that is there.
    match fired, delay, outcome with
    | some reason, _, _ => (.failed reason.error, 0)
    | none, delay + 1, _ => (.pending (.sending delay outcome policy), 0)
    | none, 0, .error e => (.failed e, 0)
    | none, 0, .ok response => receive response policy

/-- What a call starts with. -/
structure Departure where
  /-- How far the call has come. -/
  progress : CallProgress
  /-- How many bodies were let go of. -/
  released : Nat := 0
  /-- What was handed to the transport. -/
  handed : Option Outgoing := none

/-- Hand a request to a transport and look for its reply. Nothing is handed over if the signal of
the call has fired already. -/
def start (fired : Option AbortReason) (spec : RequestSpec) (requestId : String)
    (transport : Transport) : Departure :=
  match fired with
  | some reason => { progress := .failed reason.error }
  | none =>
    let request := spec.outgoing requestId
    let reply := transport.reply request
    let (progress, released) :=
      poll none (.sending reply.delay (reply.response spec) ⟨spec.throwHttpErrors, spec.hook⟩)
    { progress, released, handed := some request }

/-- The body that a waiting call holds. -/
def body? : Call → Option BodySource
  | .sending _ _ _ => none
  | .refused _ _ view _ _ => view.source

end Call

end DaemonRpc

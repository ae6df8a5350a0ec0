import DaemonRpc.Error
import DaemonRpc.Json.Decoder
import DaemonRpc.Text.Blank

/-!
# Failures that the daemon reports

The daemon refuses a request with a failure status, or reports a failure of an answer that has
begun in the field `x-stream-error`, on the head or in a trailer. Both may carry a record with a
message and a code. `ErrorAnswer.classify` reads the first, `streamError` the second.
-/

namespace DaemonRpc

/-- What the daemon says about a failure. -/
structure DaemonMessage where
  /-- What failed. -/
  text : Option String := none
  /-- The daemon's number for it. -/
  code : Option Int := none
  deriving DecidableEq, Repr

/-- How a message is read; the names of its members may begin with a capital. -/
def DaemonMessage.record : Json.Record DaemonMessage where
  name := "DaemonError"
  fields :=
    [.optional ["Message", "message"] .string fun text m => { m with text },
      .optional ["Code", "code"] .int64 fun code m => { m with code }]
  initial := {}

/-- The message that a text holds. -/
def DaemonMessage.parse (octets : List UInt8) : Except Json.Failure DaemonMessage :=
  DaemonMessage.record.decoder.parse octets

/-- The usual wording of a status. -/
def canonicalReason : Nat → Option String
  | 100 => "Continue"
  | 101 => "Switching Protocols"
  | 102 => "Processing"
  | 103 => "Early Hints"
  | 200 => "OK"
  | 201 => "Created"
  | 202 => "Accepted"
  | 203 => "Non Authoritative Information"
  | 204 => "No Content"
  | 205 => "Reset Content"
  | 206 => "Partial Content"
  | 207 => "Multi-Status"
  | 208 => "Already Reported"
  | 226 => "IM Used"
  | 300 => "Multiple Choices"
  | 301 => "Moved Permanently"
  | 302 => "Found"
  | 303 => "See Other"
  | 304 => "Not Modified"
  | 305 => "Use Proxy"
  | 307 => "Temporary Redirect"
  | 308 => "Permanent Redirect"
  | 400 => "Bad Request"
  | 401 => "Unauthorized"
  | 402 => "Payment Required"
  | 403 => "Forbidden"
  | 404 => "Not Found"
  | 405 => "Method Not Allowed"
  | 406 => "Not Acceptable"
  | 407 => "Proxy Authentication Required"
  | 408 => "Request Timeout"
  | 409 => "Conflict"
  | 410 => "Gone"
  | 411 => "Length Required"
  | 412 => "Precondition Failed"
  | 413 => "Payload Too Large"
  | 414 => "URI Too Long"
  | 415 => "Unsupported Media Type"
  | 416 => "Range Not Satisfiable"
  | 417 => "Expectation Failed"
  | 418 => "I'm a teapot"
  | 421 => "Misdirected Request"
  | 422 => "Unprocessable Entity"
  | 423 => "Locked"
  | 424 => "Failed Dependency"
  | 425 => "Too Early"
  | 426 => "Upgrade Required"
  | 428 => "Precondition Required"
  | 429 => "Too Many Requests"
  | 431 => "Request Header Fields Too Large"
  | 451 => "Unavailable For Legal Reasons"
  | 500 => "Internal Server Error"
  | 501 => "Not Implemented"
  | 502 => "Bad Gateway"
  | 503 => "Service Unavailable"
  | 504 => "Gateway Timeout"
  | 505 => "HTTP Version Not Supported"
  | 506 => "Variant Also Negotiates"
  | 507 => "Insufficient Storage"
  | 508 => "Loop Detected"
  | 510 => "Not Extended"
  | 511 => "Network Authentication Required"
  | _ => none

/-- The message says that a deadline of the daemon passed. -/
def isDeadlineText (text : String) : Bool :=
  Text.contains text "deadline exceeded" || Text.contains text "request timed out"

/-! ## Failure statuses -/

/-- An answer with a failure status, and its whole body. -/
structure ErrorAnswer where
  /-- The status. -/
  status : Nat
  /-- The header fields. -/
  headers : Headers
  /-- The octets of the body. -/
  body : List UInt8
  deriving DecidableEq, Repr

/-- A caller's own reading of failures, which may decline. -/
abbrev ErrorHook := ErrorAnswer → Option Error

namespace ErrorAnswer

/-- The first content type announces JSON. -/
def isJson (answer : ErrorAnswer) : Bool :=
  match (answer.headers.get? "content-type").bind HeaderValue.text? with
  | none => false
  | some text =>
    "application/json".toList.isPrefixOf ((Text.trimStart text).toList.map Text.lowerAscii)

/-- The text and the code in the body; a body that should be JSON and is not is described. -/
def message (answer : ErrorAnswer) : String × Option Int :=
  if answer.isJson then
    match DaemonMessage.parse answer.body with
    | .ok m => (m.text.getD "", m.code)
    | .error failure => ("failed to parse error response: " ++ failure.message, none)
  else (Text.trim (Utf8.toStringLossy answer.body), none)

/-- The text to report where the daemon gives none. -/
def defaultText (status : Nat) : String := (canonicalReason status).getD "request failed"

/-- The error that an answer means, unless the caller's hook gives one. -/
def classify (answer : ErrorAnswer) (hook : Option ErrorHook) : Error :=
  match hook.bind fun h => h answer with
  | some error => error
  | none =>
    -- The daemon reports its own deadlines with any status.
    let (text, code) := answer.message
    if isDeadlineText text then .timedOut (some text)
    else
      .http answer.status (if text = "" then defaultText answer.status else text) code
        answer.headers

end ErrorAnswer

/-! ## Failures of streams -/

/-- The field that reports a failure of a stream. -/
def streamErrorName : String := "x-stream-error"

/-- The report of a failure among header fields: the first value of its field, if it is readable
and not blank. -/
def streamReport? (headers : Headers) : Option String :=
  (((headers.get? streamErrorName).bind HeaderValue.text?).map Text.trim).filter (· ≠ "")

/-- What a report of a failure says: a message with its code, or else the text itself. -/
def streamMessage (report : String) : String × Option Int :=
  let text := Text.trim report
  match DaemonMessage.parse (Utf8.ofString text) with
  -- A code without a message is not taken.
  | .ok ⟨some message, code⟩ => (message, code)
  | _ => (text, none)

/-- The error that a report of a failure means. -/
def streamError (report : String) : Error :=
  .streamTrailer (streamMessage report).1 (streamMessage report).2

end DaemonRpc

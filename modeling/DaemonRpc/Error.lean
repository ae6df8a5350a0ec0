import DaemonRpc.Headers
import DaemonRpc.Json.Failure
import DaemonRpc.Url.Basic

/-!
# Why a call fails

`Error` lists the causes for which building a call, making it or reading its answer fails.
`Error.message` gives the wording of a cause, `Error.display` its text in diagnostics.
-/

namespace DaemonRpc

/-- A text in diagnostics after its label. -/
def displayField (label text : String) : String := label ++ ": " ++ text

/-- A record in diagnostics. -/
def displayRecord (name : String) (fields : List String) : String :=
  name ++ " \x7b " ++ String.intercalate ", " fields ++ " \x7d"

/-- An optional item in diagnostics. -/
def displayOption {α : Type} (display : α → String) : Option α → String
  | none => "None"
  | some a => "Some(" ++ display a ++ ")"

/-- A truth value in diagnostics. -/
def displayBool (b : Bool) : String := if b then "true" else "false"

/-- Why a resource cannot be called. -/
inductive ResourceFault where
  | emptyPath
  | unsupportedScheme (url : Url)
  /-- A text that is neither a URL nor relative to one. -/
  | unparsable (text : String) (cause : Url.ParseError)
  /-- A path that cannot be put under the base. -/
  | unjoinable (path : String) (base : Url) (cause : Url.ParseError)
  /-- A fault that a caller states in its own words. -/
  | stated (text : String)
  deriving DecidableEq, Repr

/-- The wording of a fault. -/
def ResourceFault.message : ResourceFault → String
  | .emptyPath => "empty resource path"
  | .unsupportedScheme url =>
    "unsupported URL scheme '" ++ url.schemeText ++ "' in " ++ url.toText
  | .unparsable text cause => "cannot parse '" ++ text ++ "': " ++ cause.message
  | .unjoinable path base cause =>
    "cannot join '" ++ path ++ "' onto " ++ base.toText ++ ": " ++ cause.message
  | .stated text => text

/-- Where a configuration fault was noticed. -/
structure FaultContext where
  /-- The setting at fault. -/
  field : Option String := none
  /-- What is wrong with it. -/
  details : Option String := none
  /-- The part of the client that refused it. -/
  source : Option String := none
  deriving DecidableEq, Repr

/-- The parts of a context that are known. -/
def FaultContext.parts (c : FaultContext) : List String :=
  [c.field.map (displayField "field"), c.details.map (displayField "details"),
    c.source.map (displayField "source")].filterMap id

/-- The known parts between parentheses, nothing if there are none. -/
def FaultContext.message (c : FaultContext) : String :=
  if c.parts.isEmpty then "" else " (" ++ String.intercalate ", " c.parts ++ ")"

/-- The text of a context in diagnostics. -/
def FaultContext.display (c : FaultContext) : String :=
  displayRecord "ErrorContext"
    [displayField "field_path" (Text.quoteOption c.field),
      displayField "details" (Text.quoteOption c.details),
      displayField "source" (Text.quoteOption c.source)]

/-- Why a setting is refused. -/
inductive ConfigFault where
  /-- A text that denotes no duration. -/
  | duration (text : String)
  /-- A text that is no base URL. -/
  | baseUrl (text : String) (cause : Url.ParseError)
  /-- A text that is no proxy URL. -/
  | proxyUrl
  /-- A timeout where no clock runs. -/
  | noClock
  /-- A fault that a caller states in its own words. -/
  | stated (text : String) (context : FaultContext)
  deriving DecidableEq, Repr

/-- The wording of a fault, without its context. -/
def ConfigFault.message : ConfigFault → String
  | .duration text => "cannot parse duration '" ++ text ++ "'"
  | .baseUrl text _ => "invalid base URL '" ++ text ++ "'"
  | .proxyUrl => "invalid proxy URL: builder error"
  | .noClock => "a timeout requires a Tokio runtime"
  | .stated text _ => text

/-- Where a fault was noticed. -/
def ConfigFault.context : ConfigFault → FaultContext
  | .duration _ =>
    ⟨some "timeout",
      some "expected milliseconds or <number><unit> parts, e.g. 500ms, 1.5s, 1h30m",
      some "timeout"⟩
  | .baseUrl _ cause => ⟨some "base_url", some cause.message, some "client_builder"⟩
  | .proxyUrl => ⟨some "proxy_url", none, some "http_transport"⟩
  | .noClock =>
    ⟨some "options.timeout",
      some ("there is no reactor running, must be called from the context of a " ++
        "Tokio 1.x runtime"),
      some "signal_composer"⟩
  | .stated _ context => context

/-- Why a call fails. -/
inductive Error where
  /-- The request could not be sent or its answer not be received. -/
  | transport (text : String)
  /-- The deadline of the call passed, or the daemon says that one of its own did. -/
  | timedOut (text : Option String)
  /-- The caller aborted the call. -/
  | aborted
  /-- The daemon refused the request. -/
  | http (status : Nat) (text : String) (code : Option Int) (headers : Headers)
  /-- The daemon failed after it had begun to answer. -/
  | streamTrailer (text : String) (code : Option Int)
  /-- The answer is not JSON of the form that was asked for. -/
  | decode (failure : Json.Failure)
  | invalidResource (fault : ResourceFault)
  | configuration (fault : ConfigFault)
  /-- A reader of the answer failed. -/
  | io (text : String)
  /-- A value could not be written as JSON. -/
  | serialization (failure : Json.Failure)
  deriving DecidableEq, Repr

namespace Error

/-- The wording of an error. -/
def message : Error → String
  | transport text => "Network transport error: Transport error: " ++ text
  | timedOut none => "Request timed out"
  | timedOut (some text) => "Request timed out: " ++ text
  | aborted => "The operation was aborted"
  | http status text _ _ => "HTTP " ++ toString status ++ ": " ++ text
  | streamTrailer text _ => "Stream error reported by daemon: " ++ text
  | decode failure => "Decode error: " ++ failure.message
  | invalidResource fault => "Invalid resource: " ++ fault.message
  | configuration fault =>
    "Configuration error: " ++ fault.message ++ fault.context.message
  | io text => "I/O error: " ++ text
  | serialization failure => "Serialization error: " ++ failure.message

/-- The status of the answer that the error comes from. -/
def status : Error → Option Nat
  | http status _ _ _ => some status
  | _ => none

/-- The context of a configuration error. -/
def context : Error → Option FaultContext
  | configuration fault => some fault.context
  | _ => none

/-- A deadline passed. -/
def isTimeout : Error → Bool
  | timedOut _ => true
  | _ => false

/-- The caller aborted the call. -/
def isAborted : Error → Bool
  | aborted => true
  | _ => false

/-- The daemon failed after it had begun to answer. -/
def isStreamTrailer : Error → Bool
  | streamTrailer _ _ => true
  | _ => false

/-- An optional code in diagnostics. -/
def displayCode (code : Option Int) : String := displayOption toString code

/-- The text of a failed reading in diagnostics. -/
def displayFailure (failure : Json.Failure) : String :=
  let place := failure.position.getD ⟨0, 0⟩
  "Error(" ++ Text.quote failure.cause.message ++ ", " ++
    displayField "line" (toString place.line) ++ ", " ++
    displayField "column" (toString place.column) ++ ")"

/-- The text of an error in diagnostics. -/
def display : Error → String
  | transport text => "Transport(Other(" ++ Text.quote text ++ "))"
  | timedOut text => displayRecord "Timeout" [displayField "message" (Text.quoteOption text)]
  | aborted => "Aborted"
  | http status text code headers =>
    displayRecord "Http"
      [displayField "status" (toString status), displayField "message" (Text.quote text),
        displayField "code" (displayCode code), displayField "headers" headers.display]
  | streamTrailer text code =>
    displayRecord "StreamTrailer"
      [displayField "message" (Text.quote text), displayField "code" (displayCode code)]
  | decode failure => "Decode(" ++ displayFailure failure ++ ")"
  | invalidResource fault =>
    displayRecord "InvalidResource" [displayField "message" (Text.quote fault.message)]
  | configuration fault =>
    displayRecord "Configuration"
      [displayField "message" (Text.quote fault.message),
        displayField "context" fault.context.display]
  | io text =>
    "Io(" ++ displayRecord "Custom" [displayField "kind" "Other",
      displayField "error" (Text.quote text)] ++ ")"
  | serialization failure => "Serialization(" ++ displayFailure failure ++ ")"

end Error

end DaemonRpc

import DaemonRpc.Classification
import DaemonRpc.Config.Basic

/-!
# Requests

A call names a resource and options; `RequestSpec.build` merges them with the defaults of a
configuration into one request. Options take the place of defaults name by name and key by key.
-/

namespace DaemonRpc

/-- A change to each record of an answer. -/
abbrev RecordTransform := Json.Value → Except Error Json.Value

/-- The body of a request. -/
inductive RequestBody where
  | empty
  | bytes (octets : List UInt8)
  /-- Pieces that are produced one after the other, each of which may fail. -/
  | stream (pieces : List (Except Error (List UInt8)))

namespace RequestBody

/-- The text of a body in diagnostics. -/
def display : RequestBody → String
  | .empty => "Empty"
  | .bytes octets => "Bytes(" ++ toString octets.length ++ " bytes)"
  | .stream _ => "Stream(..)"

/-- The pieces in one, up to the first failure. -/
def joinPieces : List (Except Error (List UInt8)) → Except Error (List UInt8)
  | [] => .ok []
  | .error e :: _ => .error e
  | .ok octets :: rest => (joinPieces rest).map (octets ++ ·)

/-- The body with its pieces collected. -/
def materialize : RequestBody → Except Error RequestBody
  | .stream pieces => (joinPieces pieces).map .bytes
  | body => .ok body

end RequestBody

/-- What a single call sets. -/
structure RequestOptions where
  /-- The method. -/
  method : Option String := none
  /-- Header fields. -/
  headers : Headers := {}
  /-- Query parameters. -/
  params : Params := {}
  /-- Positional arguments, which become parameters `arg`. -/
  args : List String := []
  /-- A body of JSON, which wins over any other body. -/
  json : Option Json.Value := none
  /-- The body. -/
  body : Option RequestBody := none
  /-- The time limit. -/
  timeout : Option Timeout := none
  /-- The number of the controller that may abort the call. -/
  signal : Option Nat := none
  /-- A change to each record of the answer. -/
  transform : Option RecordTransform := none
  /-- The last change to the parameters. -/
  transformParams : Option (Params → Params) := none
  /-- The caller's own reading of failures. -/
  hook : Option ErrorHook := none
  /-- An answer with a failure status is an error. -/
  throwHttpErrors : Option Bool := none

namespace RequestOptions

/-- Add a positional argument. -/
def arg (o : RequestOptions) (value : String) : RequestOptions :=
  { o with args := o.args ++ [value] }

/-- Add a parameter. -/
def param (o : RequestOptions) (key value : String) : RequestOptions :=
  { o with params := o.params.append key value }

/-- Add a parameter if it has a value. -/
def param? (o : RequestOptions) (key : String) : Option String → RequestOptions
  | none => o
  | some value => o.param key value

end RequestOptions

/-- A request with nothing left to resolve. -/
structure RequestSpec where
  /-- The method. -/
  method : String
  /-- The URL. -/
  url : Url
  /-- The header fields. -/
  headers : Headers
  /-- The body. -/
  body : RequestBody
  /-- How long the client waits. -/
  timeout : Option Duration
  /-- The number of the controller that may abort the call. -/
  signal : Option Nat
  /-- A change to each record of the answer. -/
  transform : Option RecordTransform
  /-- The caller's own reading of failures. -/
  hook : Option ErrorHook
  /-- An answer with a failure status is an error. -/
  throwHttpErrors : Bool

/-- What is called. -/
inductive Resource where
  /-- A command, or a URL written out. -/
  | path (text : String)
  | url (url : Url)
  /-- A request that is resolved already. -/
  | prebuilt (spec : RequestSpec)

/-- Refuse a URL of another scheme than HTTP. -/
def checkScheme (url : Url) : Except Error Url :=
  if url.scheme = "http".toList ∨ url.scheme = "https".toList then .ok url
  else .error (.invalidResource (.unsupportedScheme url))

/-- The URL of a command, or the URL that a text writes out. -/
def ClientConfig.resolve (config : ClientConfig) (text : String) : Except Error Url :=
  let text := Text.trim text
  if text = "" then .error (.invalidResource .emptyPath)
  else
    match Url.parse text with
    | .ok url => checkScheme url
    -- Text that has no scheme is the path of a command.
    | .error .relativeWithoutBase => config.endpoint text
    | .error cause => .error (.invalidResource (.unparsable text cause))

namespace RequestSpec

/-- Overlay the query of a URL with the defaults and these with the options. -/
def mergeParams (config : ClientConfig) (url : Url) (options : RequestOptions) : Params :=
  ((Params.mk url.queryPairs).merge config.params).merge options.params

/-- The time that the client waits, and the parameters with which the daemon learns of it. -/
def applyTimeout (timeout : Option Timeout) (params : Params) :
    Except Error (Option Duration × Params) :=
  match timeout with
  | none => .ok (none, params)
  | some t => do
    let duration ← t.duration
    -- A time limit that the caller states as a parameter is left as it is.
    if duration.isSome && !params.contains "timeout" then
      return (duration, params.set "timeout" (← t.toQueryValue))
    else return (duration, params)

/-- Add positional arguments. -/
def appendArgs (args : List String) (params : Params) : Params :=
  args.foldl (fun params value => params.append "arg" value) params

/-- The URL with these parameters as its query, without a query if there are none. -/
def withParams (url : Url) (params : Params) : Url :=
  url.withQuery (if params.isEmpty then none else some params.encode)

/-- The content type of JSON. -/
def jsonType : HeaderValue := Utf8.ofString "application/json"

/-- The body, and the header fields that go with it. -/
def applyBody (options : RequestOptions) (headers : Headers) : RequestBody × Headers :=
  match options.json with
  | some value => (.bytes (Utf8.encode value.write), headers.insert "content-type" jsonType)
  | none => (options.body.getD .empty, headers)

/-- The request for a URL. -/
def buildAt (config : ClientConfig) (url : Url) (options : RequestOptions) :
    Except Error RequestSpec := do
  let (timeout, params) ← applyTimeout (options.timeout <|> config.timeout)
    (mergeParams config url options)
  let params := appendArgs options.args params
  let params := ((options.transformParams <|> config.transformParams).getD id) params
  let (body, headers) := applyBody options (config.headers.extend options.headers)
  return {
    method := options.method.getD "GET"
    url := withParams url params
    headers
    body
    timeout
    signal := options.signal
    transform := options.transform
    hook := options.hook
    throwHttpErrors := options.throwHttpErrors.getD config.throwHttpErrors }

/-- The request for a resource; one that is resolved already stays as it is. -/
def build (config : ClientConfig) (resource : Resource) (options : RequestOptions) :
    Except Error RequestSpec :=
  match resource with
  | .prebuilt spec => .ok spec
  | .url url => do buildAt config (← checkScheme url) options
  | .path text => do buildAt config (← config.resolve text) options

/-- The text of a request in diagnostics, given the text of a controller's signal. -/
def display (spec : RequestSpec) (displaySignal : Nat → String) : String :=
  displayRecord "RequestSpec"
    [displayField "method" spec.method,
      displayField "url" (Text.quote spec.url.toText),
      displayField "headers" spec.headers.display,
      displayField "body" spec.body.display,
      displayField "timeout" (displayOption Duration.display spec.timeout),
      displayField "signal" (displayOption displaySignal spec.signal),
      displayField "transform" (displayBool spec.transform.isSome),
      displayField "handle_error" (displayBool spec.hook.isSome),
      displayField "throw_http_errors" (displayBool spec.throwHttpErrors)]

end RequestSpec

end DaemonRpc

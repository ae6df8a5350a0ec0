import DaemonRpc.Config.Basic

/-!
# Building a configuration

Settings take the place of variables of the environment, which take the place of the standard
configuration. Texts are checked when the configuration is built, so that no later call fails on
them (`ClientSettings.build`); the proxy is checked when a client is made (`checkProxy`).
-/

namespace DaemonRpc

/-- What may be set. -/
structure ClientSettings where
  /-- Where the daemon is. -/
  baseUrl : Option String := none
  /-- The path of the interface. -/
  apiPath : Option String := none
  /-- Header fields, which replace standard ones of the same name. -/
  headers : Headers := ⟨[]⟩
  /-- Query parameters, which replace standard ones of the same key. -/
  params : Params := ⟨[]⟩
  /-- The time limit of a call. -/
  timeout : Option Timeout := none
  /-- An answer with a failure status is an error. -/
  throwHttpErrors : Bool := true
  /-- The last change to parameters, or none at all. -/
  transformParams : Option (Option (Params → Params)) := none
  /-- Request bodies are collected before they are sent. -/
  bufferStreamUploads : Option Bool := none
  /-- How many idle connections to one host are kept. -/
  poolMaxIdlePerHost : Option Nat := none
  /-- How long an idle connection is kept. -/
  poolIdleTimeout : Option Duration := none
  /-- Where a proxy is. -/
  proxyUrl : Option String := none

/-- The variables of the environment that have a value. -/
abbrev Environment := List (String × String)

namespace Environment

/-- The value of a variable without blanks around it; a blank value counts as none. -/
def text? (env : Environment) (name : String) : Option String :=
  ((env.lookup name).map Text.trim).filter (· ≠ "")

/-- The 64-bit number that a variable denotes; any other value counts as none. -/
def word? (env : Environment) (name : String) : Option Nat :=
  (env.text? name).bind fun value => Text.natBelow UInt64.size value.toList

/-- Where the daemon is. -/
def url? (env : Environment) : Option String := env.text? "KUBO_RPC_URL"

/-- The time limit of a call. -/
def timeout? (env : Environment) : Option Timeout :=
  (env.text? "KUBO_RPC_TIMEOUT").map .text

/-- How many idle connections to one host are kept. -/
def poolMaxIdlePerHost? (env : Environment) : Option Nat :=
  env.word? "KUBO_RPC_POOL_MAX_IDLE_PER_HOST"

/-- How long an idle connection is kept. -/
def poolIdleTimeout? (env : Environment) : Option Duration :=
  (env.word? "KUBO_RPC_POOL_IDLE_TIMEOUT_SECS").map (Duration.ofSeconds · 0)

/-- Where a proxy is. -/
def proxyUrl? (env : Environment) : Option String := env.text? "KUBO_RPC_PROXY_URL"

end Environment

/-- The base URL that a text denotes. -/
def parseBaseUrl (text : String) : Except Error Url :=
  (Url.parse (Text.trim text)).mapError fun cause => .configuration (.baseUrl text cause)

/-- Refuse a time limit whose text denotes no duration. -/
def checkTimeout : Option Timeout → Except Error Unit
  | none => .ok ()
  | some t => t.duration.map fun _ => ()

namespace ClientSettings

/-- The configuration with these settings in this environment. -/
def build (s : ClientSettings) (env : Environment) : Except Error ClientConfig := do
  let standard := ClientConfig.standard
  let baseUrl ← match s.baseUrl <|> env.url? with
    | none => Except.ok standard.baseUrl
    | some text => parseBaseUrl text
  -- The text is kept, but it must denote a duration.
  let timeout := s.timeout <|> env.timeout?
  checkTimeout timeout
  return {
    baseUrl
    apiPath := s.apiPath.getD standard.apiPath
    headers := standard.headers.extend s.headers
    params := standard.params.merge s.params
    timeout
    throwHttpErrors := s.throwHttpErrors
    transformParams := s.transformParams.getD standard.transformParams
    bufferStreamUploads := s.bufferStreamUploads.getD standard.bufferStreamUploads
    poolMaxIdlePerHost :=
      (s.poolMaxIdlePerHost <|> env.poolMaxIdlePerHost?).getD standard.poolMaxIdlePerHost
    poolIdleTimeout := (s.poolIdleTimeout <|> env.poolIdleTimeout?).getD standard.poolIdleTimeout
    proxyUrl := s.proxyUrl <|> env.proxyUrl? }

end ClientSettings

/-- The text is a URL with a host, or the rest of one after `http://`. -/
def isProxyUrl (text : String) : Bool :=
  let isHttpHost := fun _ : Unit =>
    match Url.parse ("http://" ++ text) with
    | .ok url => url.hasHost
    | .error _ => false
  match Url.parse text with
  | .ok url => url.hasHost || isHttpHost ()
  -- Text without any scheme may still name a host.
  | .error .relativeWithoutBase => isHttpHost ()
  | .error _ => false

/-- Refuse a configuration with a proxy that cannot be reached. -/
def checkProxy (config : ClientConfig) : Except Error ClientConfig :=
  match config.proxyUrl with
  | none => .ok config
  | some text => if isProxyUrl text then .ok config else .error (.configuration .proxyUrl)

end DaemonRpc

import DaemonRpc.Params
import DaemonRpc.Timeout
import DaemonRpc.Url.Parser

/-!
# Configuration of a client

The defaults that a client gives to each of its calls. A command is a path below the base URL and
the path of the interface (`ClientConfig.endpoint`).
-/

namespace DaemonRpc

/-- The configuration of a client. -/
structure ClientConfig where
  /-- Where the daemon is. -/
  baseUrl : Url
  /-- The path of the interface below the base URL. -/
  apiPath : String
  /-- Header fields of every call. -/
  headers : Headers
  /-- Query parameters of every call. -/
  params : Params
  /-- The time limit of a call that has none of its own. -/
  timeout : Option Timeout
  /-- An answer with a failure status is an error. -/
  throwHttpErrors : Bool
  /-- The last change to the parameters of a call that has none of its own. -/
  transformParams : Option (Params → Params)
  /-- Request bodies are collected before they are sent. -/
  bufferStreamUploads : Bool
  /-- How many idle connections to one host are kept. -/
  poolMaxIdlePerHost : Nat
  /-- How long an idle connection is kept. -/
  poolIdleTimeout : Duration
  /-- Where a proxy is. -/
  proxyUrl : Option String

namespace ClientConfig

/-- Where the daemon is unless configured otherwise. -/
def defaultBaseUrl : Url where
  scheme := "http".toList
  host := some "127.0.0.1".toList
  portNumber := some 5001
  path := .segments [[]]

/-- How the client names itself. -/
def userAgent : HeaderValue := Utf8.ofString "kubo-rpc/0.1.0"

/-- The configuration without any setting. -/
def standard : ClientConfig where
  baseUrl := defaultBaseUrl
  apiPath := "/api/v0"
  headers := ⟨[⟨"user-agent", [userAgent]⟩]⟩
  params := ⟨[]⟩
  timeout := none
  throwHttpErrors := true
  transformParams := some Params.kebab
  bufferStreamUploads := false
  poolMaxIdlePerHost := 32
  poolIdleTimeout := .ofSeconds 90 0
  proxyUrl := none

/-- The path of a command, without slashes at its start, below the path of the interface. -/
def commandPath (config : ClientConfig) (path : String) : String :=
  let isSlash := fun c : Char => c == '/'
  let interface := Text.dropEndWhile isSlash (config.apiPath.toList.dropWhile isSlash)
  let command := path.toList.dropWhile isSlash
  String.ofList (if interface.isEmpty then command else interface ++ '/' :: command)

/-- The URL of a command: its path goes below the base URL, whose own path is taken as a
directory. -/
def endpoint (config : ClientConfig) (path : String) : Except Error Url :=
  let base := config.baseUrl.asDirectory
  match base.join (config.commandPath path) with
  | .ok url => .ok url
  | .error cause =>
    -- The error names the command alone, without the path of the interface.
    let command := String.ofList (path.toList.dropWhile (· == '/'))
    .error (.invalidResource (.unjoinable command base cause))

/-- The text of a configuration in diagnostics. -/
def display (config : ClientConfig) : String :=
  displayRecord "ClientConfig"
    [displayField "base_url" (Text.quote config.baseUrl.toText),
      displayField "api_path" (Text.quote config.apiPath),
      displayField "headers" config.headers.display,
      displayField "search_params" config.params.display,
      displayField "timeout" (displayOption Timeout.display config.timeout),
      displayField "throw_http_errors" (displayBool config.throwHttpErrors),
      displayField "transform_search_params" (displayBool config.transformParams.isSome),
      displayField "buffer_stream_uploads" (displayBool config.bufferStreamUploads),
      displayField "pool_max_idle_per_host" (toString config.poolMaxIdlePerHost),
      displayField "pool_idle_timeout" config.poolIdleTimeout.display,
      displayField "proxy_url" (Text.quoteOption config.proxyUrl)]

/-- The text of a client in diagnostics, which shows its configuration alone. -/
def displayClient (config : ClientConfig) : String :=
  "Client \x7b " ++ displayField "config" config.display ++ ", .. \x7d"

end ClientConfig

end DaemonRpc

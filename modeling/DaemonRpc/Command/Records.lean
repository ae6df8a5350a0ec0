import DaemonRpc.Json.Decoder
import DaemonRpc.Request

/-!
# Records of the daemon

The records that the daemon answers commands with, and how each is read. What the daemon leaves out
is empty. The records of a garbage collection are flattened before they are read.
-/

namespace DaemonRpc

/-- The versions of a daemon. -/
structure VersionInfo where
  version : String := ""
  commit : String := ""
  repo : String := ""
  system : String := ""
  golang : String := ""
  deriving DecidableEq, Repr

/-- How versions are read. -/
def VersionInfo.record : Json.Record VersionInfo where
  name := "VersionInfo"
  fields :=
    [.required "Version" .string fun version v => { v with version },
      .defaulted "Commit" .string fun commit v => { v with commit },
      .defaulted "Repo" .string fun repo v => { v with repo },
      .defaulted "System" .string fun system v => { v with system },
      .defaulted "Golang" .string fun golang v => { v with golang }]
  initial := {}

/-- Who a node is. -/
structure PeerIdentity where
  id : String := ""
  publicKey : String := ""
  addresses : List String := []
  agentVersion : String := ""
  protocols : List String := []
  deriving DecidableEq, Repr

/-- How a list of strings is read for which `null` may stand. -/
def stringsOrNull : Json.Decoder (List String) :=
  Json.Decoder.string.listOf.optional.map (·.getD [])

/-- How identities are read. -/
def PeerIdentity.record : Json.Record PeerIdentity where
  name := "PeerIdentity"
  fields :=
    [.required "ID" .string fun id p => { p with id },
      .defaulted "PublicKey" .string fun publicKey p => { p with publicKey },
      .defaulted "Addresses" stringsOrNull fun addresses p => { p with addresses },
      .defaulted "AgentVersion" .string fun agentVersion p => { p with agentVersion },
      .defaulted "Protocols" stringsOrNull fun protocols p => { p with protocols }]
  initial := {}

/-- A round trip to a peer. -/
structure PingReply where
  success : Bool := false
  /-- Its length in nanoseconds. -/
  time : Nat := 0
  text : String := ""
  deriving DecidableEq, Repr

/-- How round trips are read. -/
def PingReply.record : Json.Record PingReply where
  name := "PingReply"
  fields :=
    [.required "Success" .bool fun success r => { r with success },
      .defaulted "Time" .nat64 fun time r => { r with time },
      .defaulted "Text" .string fun text r => { r with text }]
  initial := {}

/-- A reference to a block. -/
structure RefEntry where
  reference : String := ""
  err : String := ""
  deriving DecidableEq, Repr

/-- How references are read. -/
def RefEntry.record : Json.Record RefEntry where
  name := "RefEntry"
  fields :=
    [.required "Ref" .string fun reference r => { r with reference },
      .defaulted "Err" .string fun err r => { r with err }]
  initial := {}

/-- A block that a garbage collection removed, or why it could not. -/
structure GcResult where
  cid : Option String := none
  error : Option String := none
  deriving DecidableEq, Repr

/-- How results of a garbage collection are read. -/
def GcResult.record : Json.Record GcResult where
  name := "GcResult"
  fields :=
    [.optional ["cid"] .string fun cid r => { r with cid },
      .optional ["error"] .string fun error r => { r with error }]
  initial := {}

namespace GcResult

/-- The block that a record of the daemon names, under `/` in its key. -/
def cidOf (record : Json.Value) : Option String :=
  ((record.member? "Key").bind (·.member? "/")).bind (·.text?)

/-- The error that a record of the daemon reports; a blank one is none. -/
def errorOf (record : Json.Value) : Option String :=
  ((record.member? "Error").bind (·.text?)).filter (· ≠ "")

/-- A record of the daemon with block and error at its top. -/
def flatten (record : Json.Value) : Json.Value :=
  .ofMembers [("cid", .ofText? (cidOf record)), ("error", .ofText? (errorOf record))]

end GcResult

/-! ## Records of several types -/

/-- The type of the records of a stream. -/
inductive RecordType where
  | int
  | strings
  | reference
  | ping
  | gc
  deriving DecidableEq, Repr

/-- A record of one of the types. -/
inductive TypedRecord where
  | int (value : Int)
  | strings (values : List String)
  | reference (entry : RefEntry)
  | ping (reply : PingReply)
  | gc (result : GcResult)
  deriving DecidableEq, Repr

/-- How records of a type are read. -/
def RecordType.decoder : RecordType → Json.Decoder TypedRecord
  | .int => Json.Decoder.int64.map .int
  | .strings => Json.Decoder.string.listOf.map .strings
  | .reference => RefEntry.record.decoder.map .reference
  | .ping => PingReply.record.decoder.map .ping
  | .gc => GcResult.record.decoder.map .gc

/-- The record that a value holds. -/
def RecordType.read (type : RecordType) (v : Json.Value) : Except Error TypedRecord :=
  (type.decoder.interpret v).mapError .decode

/-- How a body is read item by item. -/
inductive StreamKind where
  | bytes
  | records
  | typed (type : RecordType)
  deriving DecidableEq, Repr

/-! ## Whole bodies -/

/-- How a whole body is read. -/
inductive Form where
  | octets
  | text
  | json
  | strings
  | version
  | identity
  deriving DecidableEq, Repr

/-- What a whole body holds. -/
inductive Content where
  | octets (octets : List UInt8)
  | text (text : String)
  | json (value : Json.Value)
  | strings (values : List String)
  | version (info : VersionInfo)
  | identity (peer : PeerIdentity)
  /-- The records of a body. -/
  | records (values : List Json.Value)

/-- The content of a body in a form. -/
def Form.read (form : Form) (octets : List UInt8) : Except Error Content :=
  let parse := fun d : Json.Decoder Content => (d.parse octets).mapError Error.decode
  match form with
  | .octets => .ok (.octets octets)
  | .text => .ok (.text (Utf8.toStringLossy octets))
  | .json => parse (Json.Decoder.any.map .json)
  | .strings => parse (Json.Decoder.string.listOf.map .strings)
  | .version => parse (VersionInfo.record.decoder.map .version)
  | .identity => parse (PeerIdentity.record.decoder.map .identity)

end DaemonRpc

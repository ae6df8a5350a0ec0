import DaemonRpc.Command.Records

/-!
# Commands

What a call is for, and the commands of the daemon: each is a path, arguments and parameters added
to the options of the caller, and what its answer is read as.
-/

namespace DaemonRpc

/-- What becomes of the answer of a call. -/
inductive Goal where
  /-- It is handed over with its body unread. -/
  | response
  /-- Its whole body is read. -/
  | whole (form : Form)
  /-- Its body is read item by item. -/
  | stream (kind : StreamKind)
  deriving DecidableEq, Repr

/-- A command of the daemon. -/
inductive Command where
  | version
  | identity (peer : Option String)
  | cat (path : String) (offset length : Option Nat)
  | blockGet (cid : String)
  | ping (peer : String) (count : Option Nat)
  | repoGc (quiet : Bool)
  | refsLocal
  deriving DecidableEq, Repr

namespace Command

/-- Where a command is. -/
def path : Command → String
  | .version => "version"
  | .identity _ => "id"
  | .cat _ _ _ => "cat"
  | .blockGet _ => "block/get"
  | .ping _ _ => "ping"
  | .repoGc _ => "repo/gc"
  | .refsLocal => "refs/local"

/-- The options of a caller with what a command adds. -/
def options (o : RequestOptions) : Command → RequestOptions
  | .version | .refsLocal | .identity none => o
  | .identity (some peer) => o.arg peer
  | .cat path offset length =>
    ((o.arg path).param? "offset" (offset.map toString)).param? "length" (length.map toString)
  | .blockGet cid => o.arg cid
  | .ping peer count => (o.arg peer).param? "count" (count.map toString)
  | .repoGc quiet =>
    { (o.param "stream-errors" "true").param "quiet" (displayBool quiet) with
      transform := some fun record => .ok (GcResult.flatten record) }

/-- What the answer of a command is read as. -/
def goal : Command → Goal
  | .version => .whole .version
  | .identity _ => .whole .identity
  | .cat _ _ _ | .blockGet _ => .stream .bytes
  | .ping _ _ => .stream (.typed .ping)
  | .repoGc _ => .stream (.typed .gc)
  | .refsLocal => .stream (.typed .reference)

end Command

end DaemonRpc

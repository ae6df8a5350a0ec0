import DaemonRpc.Signal.Cascade

/-!
# Merged signals

A merged signal follows other signals and a timer: it fires with the reason of the first of them
that fires, or at once if one has fired already. The clock moves only by `Store.advance`, which
fires the timers that are due in the order of their deadlines.
-/

namespace DaemonRpc.Signal.Store

variable {κ : Type} [DecidableEq κ]

/-- Add a merged signal. -/
def addMerged (s : Store κ) (key : κ) (e : Entry κ) (m : Merge κ) : Store κ :=
  { s with entries := s.entries ++ [(.merged key, e)], merges := s.merges ++ [(key, m)] }

/-- When a timer that is started now fires; a timeout of zero starts none. The clock counts
nanoseconds and a timer fires as it reaches this one. A runtime whose timers tick in whole
milliseconds fires the timer of a finer timeout up to a millisecond later. -/
def deadline? (s : Store κ) (timeout : Option Duration) : Option Nat :=
  (timeout.filter fun d => !d.isZero).map (s.now + ·.nanoseconds)

/-- Merge signals and a timeout under a new key. -/
def compose (s : Store κ) (key : κ) (sources : List (Name κ)) (timeout : Option Duration) :
    Store κ :=
  match sources.findSome? s.reason? with
  -- Nothing stays attached to a signal that has fired.
  | some reason => s.addMerged key { reason := some reason, woken := true } { sources }
  | none =>
    (sources.foldl (attachRelay key) s).addMerged key {}
      { sources, deadline := s.deadline? timeout }

/-- Merge signals and a timeout under a new key, which fails for a timeout if no clock runs. -/
def compose? (s : Store κ) (hasClock : Bool) (key : κ) (sources : List (Name κ))
    (timeout : Option Duration) : Except Error (Store κ) :=
  -- This is looked at first, so a failure leaves no trace.
  if (s.deadline? timeout).isSome && !hasClock then .error (.configuration .noClock)
  else .ok (s.compose key sources timeout)

/-- The timers that are due, with their deadlines. -/
def dueTimers (s : Store κ) : List (Nat × κ) :=
  s.merges.filterMap fun (key, m) => (m.deadline.filter (· ≤ s.now)).map (·, key)

/-- The merged signals whose timers are due, by deadline and then by creation. -/
def due (s : Store κ) : List κ :=
  (s.dueTimers.mergeSort fun a b => a.1 ≤ b.1).map (·.2)

/-- The timer of a merged signal fires if it still runs. -/
def expire (s : Store κ) (key : κ) : Store κ × List (Event κ) :=
  if s.hasTimer key then s.run [.deliver (.relay key) .timedOut] else (s, [])

/-- Timers fire one after the other if they still run. -/
def expireAll : List κ → Store κ → Store κ × List (Event κ)
  | [], s => (s, [])
  | key :: rest, s =>
    let (s, events) := s.expire key
    let (s, more) := expireAll rest s
    (s, events ++ more)

/-- The clock moves and the timers that are due fire. -/
def advance (s : Store κ) (d : Duration) : Store κ × List (Event κ) :=
  let s := { s with now := s.now + d.nanoseconds }
  expireAll s.due s

/-! ## Diagnostics -/

/-- The text of a signal in diagnostics. -/
def display (s : Store κ) (name : Name κ) : String :=
  displayRecord "AbortSignal"
    [displayField "reason" (displayOption AbortReason.display (s.reason? name)),
      displayField "listeners" (toString (s.listenerCount name))]

/-- The text of a controller in diagnostics. -/
def displayController (s : Store κ) (n : Nat) : String :=
  displayRecord "AbortController" [displayField "signal" (s.display (.controller n))]

/-- The text of a merged signal in diagnostics. -/
def displayMerged (s : Store κ) (key : κ) : String :=
  displayRecord "ComposedSignal"
    [displayField "signal" (s.display (.merged key)),
      displayField "has_timer" (displayBool (s.hasTimer key))]

end DaemonRpc.Signal.Store

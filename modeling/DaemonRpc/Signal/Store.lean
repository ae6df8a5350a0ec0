import DaemonRpc.Duration.Basic
import DaemonRpc.Error

/-!
# Abort signals

A signal fires at most once, with a reason. Signals belong to controllers, which callers abort, or
are merged from other signals and a timer. A `Store` holds all signals and a clock; merged signals
are named by keys that their owners choose. What is attached to a signal is a relay to a merged
signal or a call with a label and effects.

The operations here change single signals. Firing, which runs listeners and so reaches further
signals, is in `Signal.Cascade`.
-/

namespace DaemonRpc

/-- Why a signal fires. -/
inductive AbortReason where
  /-- A caller aborted. -/
  | aborted
  /-- A deadline passed. -/
  | timedOut
  deriving DecidableEq, Repr

/-- The error of a call whose signal fires. -/
def AbortReason.error : AbortReason → Error
  | .aborted => .aborted
  | .timedOut => .timedOut none

/-- The text of a reason in diagnostics. -/
def AbortReason.display : AbortReason → String
  | .aborted => "Aborted"
  | .timedOut => "TimedOut"

namespace Signal

/-- The name of a signal. -/
inductive Name (κ : Type) where
  /-- The signal of a controller. -/
  | controller (n : Nat)
  /-- A merged signal. -/
  | merged (key : κ)
  deriving DecidableEq, Repr

/-- What a listener may do when it is called. -/
inductive Effect (κ : Type) where
  /-- Abort a controller. -/
  | abort (controller : Nat)
  /-- Clear a merged signal. -/
  | clear (key : κ)
  /-- Report how many listeners a signal has. -/
  | count (signal : Name κ)
  /-- Subscribe a listener without effects. -/
  | subscribe (signal : Name κ) (label : String)
  deriving DecidableEq, Repr

/-- What is attached to a signal. -/
inductive Listener (κ : Type) where
  /-- Fires a merged signal. -/
  | relay (key : κ)
  /-- Reports its label, and then has effects. -/
  | call (id : Nat) (label : String) (effects : List (Effect κ))
  deriving DecidableEq, Repr

/-- The state of a signal. -/
structure Entry (κ : Type) where
  /-- The reason with which it fired. -/
  reason : Option AbortReason := none
  /-- The listeners in the order of their subscription. -/
  listeners : List (Listener κ) := []
  /-- How many listeners got a number. -/
  issued : Nat := 0
  /-- Those who wait for the signal are woken. -/
  woken : Bool := false
  deriving DecidableEq, Repr

/-- What a merged signal was made of. -/
structure Merge (κ : Type) where
  /-- The signals it follows; one may occur again. -/
  sources : List (Name κ)
  /-- When the timer that still runs will fire it. -/
  deadline : Option Nat := none
  /-- It was cleared. -/
  cleared : Bool := false
  deriving DecidableEq, Repr

/-- All signals and the clock. -/
structure Store (κ : Type) where
  /-- The signals in the order of their creation. -/
  entries : List (Name κ × Entry κ) := []
  /-- The merged signals in the order of their creation. -/
  merges : List (κ × Merge κ) := []
  /-- The nanoseconds that have passed. -/
  now : Nat := 0
  deriving DecidableEq, Repr

/-- Change the first item under a key. -/
def update {α β : Type} [DecidableEq α] (key : α) (f : β → β) : List (α × β) → List (α × β)
  | [] => []
  | (k, b) :: rest => if k = key then (k, f b) :: rest else (k, b) :: update key f rest

/-- Looking a key up after changing the item under one. -/
theorem lookup_update {α β : Type} [DecidableEq α] (key other : α) (f : β → β)
    (l : List (α × β)) :
    (update key f l).lookup other =
      if other = key then (l.lookup other).map f else l.lookup other := by
  induction l with
  | nil => simp [update]
  | cons entry rest ih =>
    obtain ⟨k, b⟩ := entry
    by_cases hk : k = key
    · subst hk
      by_cases ho : other = k
      · simp [update, ho]
      · have hb : (other == k) = false := by simp [ho]
        simp [update, List.lookup_cons, hb, ho]
    · by_cases ho : other = k
      · subst ho
        simp [update, hk]
      · have hb : (other == k) = false := by simp [ho]
        simp only [update, hk, if_false, List.lookup_cons, hb, ih]

namespace Store

variable {κ : Type} [DecidableEq κ]

/-- The state of a signal. -/
def state? (s : Store κ) (name : Name κ) : Option (Entry κ) := s.entries.lookup name

/-- The reason with which a signal fired. -/
def reason? (s : Store κ) (name : Name κ) : Option AbortReason := (s.state? name).bind (·.reason)

/-- What waiting for a signal ends with, once those who wait are woken. -/
def awaited? (s : Store κ) (name : Name κ) : Option AbortReason :=
  if (s.state? name).any (·.woken) then some ((s.reason? name).getD .aborted) else none

/-- How many listeners a signal has. -/
def listenerCount (s : Store κ) (name : Name κ) : Nat :=
  ((s.state? name).map (·.listeners.length)).getD 0

/-- What a merged signal was made of. -/
def merge? (s : Store κ) (key : κ) : Option (Merge κ) := s.merges.lookup key

/-- The timer of a merged signal still runs. -/
def hasTimer (s : Store κ) (key : κ) : Bool := ((s.merge? key).bind (·.deadline)).isSome

/-- Change the state of a signal. -/
def change (s : Store κ) (name : Name κ) (f : Entry κ → Entry κ) : Store κ :=
  { s with entries := update name f s.entries }

/-- Add the signal of a controller. -/
def addController (s : Store κ) (n : Nat) : Store κ :=
  { s with entries := s.entries ++ [(.controller n, {})] }

/-- A signal fires with a reason: it lets go of its listeners and wakes those who wait. -/
def markFired (s : Store κ) (name : Name κ) (reason : AbortReason) : Store κ :=
  s.change name fun e => { e with reason := some reason, listeners := [], woken := true }

/-- Attach a call to a signal under the next number of the signal. -/
def attach (s : Store κ) (name : Name κ) (label : String) (effects : List (Effect κ)) : Store κ :=
  s.change name fun e =>
    { e with listeners := e.listeners ++ [.call e.issued label effects], issued := e.issued + 1 }

/-- Attach a relay to a signal. -/
def attachRelay (key : κ) (s : Store κ) (name : Name κ) : Store κ :=
  s.change name fun e => { e with listeners := e.listeners ++ [.relay key] }

/-- The listener is the call with this number. -/
def isCall (id : Nat) : Listener κ → Bool
  | .call other _ _ => other == id
  | .relay _ => false

/-- Take the call with this number away; says whether it was there. -/
def unsubscribe (s : Store κ) (name : Name κ) (id : Nat) : Store κ × Bool :=
  (s.change name fun e => { e with listeners := e.listeners.filter fun l => !isCall id l },
    ((s.state? name).map (·.listeners.any (isCall id))).getD false)

/-- The state without relays to a merged signal. -/
def withoutRelay (key : κ) (e : Entry κ) : Entry κ :=
  { e with listeners := e.listeners.filter (· ≠ .relay key) }

/-- Take every relay to a merged signal away and stop its timer. -/
def detach (s : Store κ) (key : κ) : Store κ :=
  { s with
    entries := s.entries.map fun entry => (entry.1, withoutRelay key entry.2)
    merges := update key (fun m => { m with deadline := none }) s.merges }

/-- Clear a merged signal: nothing will reach it from its sources or its timer. -/
def clear (s : Store κ) (key : κ) : Store κ :=
  -- A relay that is on its way already is not called back.
  let s := s.detach key
  { s with merges := update key (fun m => { m with cleared := true }) s.merges }

/-- How many signals have not fired. -/
def unfired (s : Store κ) : Nat := s.entries.countP fun entry => entry.2.reason.isNone

/-- A change that keeps the reason of a state. -/
def KeepsReason (f : Entry κ → Entry κ) : Prop := ∀ e, (f e).reason = e.reason

/-- Changing one signal without firing it leaves as many signals unfired. -/
theorem countP_update {f : Entry κ → Entry κ} (hf : KeepsReason f) (name : Name κ)
    (l : List (Name κ × Entry κ)) :
    (update name f l).countP (fun entry => entry.2.reason.isNone) =
      l.countP fun entry => entry.2.reason.isNone := by
  induction l with
  | nil => rfl
  | cons entry rest ih =>
    obtain ⟨n, e⟩ := entry
    by_cases hn : n = name <;> simp [update, hn, List.countP_cons, ih, hf e]

/-- Attaching a call leaves as many signals unfired. -/
theorem unfired_attach (s : Store κ) (name : Name κ) (label : String)
    (effects : List (Effect κ)) : (s.attach name label effects).unfired = s.unfired :=
  countP_update (f := fun e =>
    { e with listeners := e.listeners ++ [.call e.issued label effects], issued := e.issued + 1 })
    (fun _ => rfl) name s.entries

/-- Detaching a merged signal leaves as many signals unfired. -/
theorem unfired_detach (s : Store κ) (key : κ) : (s.detach key).unfired = s.unfired := by
  simp only [unfired, detach, List.countP_map]
  rfl

/-- Clearing a merged signal leaves as many signals unfired. -/
theorem unfired_clear (s : Store κ) (key : κ) : (s.clear key).unfired = s.unfired :=
  unfired_detach s key

/-- Firing a signal leaves fewer signals unfired. -/
theorem unfired_markFired {s : Store κ} {name : Name κ} {e : Entry κ} (reason : AbortReason)
    (he : s.state? name = some e) (hr : e.reason = none) :
    (s.markFired name reason).unfired < s.unfired := by
  simp only [state?] at he
  simp only [unfired, markFired, change]
  generalize s.entries = l at he
  induction l with
  | nil => simp at he
  | cons entry rest ih =>
    obtain ⟨n, e'⟩ := entry
    by_cases hn : n = name
    · subst hn
      simp only [List.lookup_cons, beq_self_eq_true, Option.some.injEq] at he
      subst he
      simp [update, hr]
    · have hb : (name == n) = false := by simp [Ne.symm hn]
      simp only [List.lookup_cons, hb] at he
      simp only [update, hn, if_false, List.countP_cons]
      exact Nat.add_lt_add_right (ih he) _

end Store

end Signal

end DaemonRpc

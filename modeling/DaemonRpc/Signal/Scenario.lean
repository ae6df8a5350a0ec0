import DaemonRpc.Signal.Composition

/-!
# Scenarios of signals

Steps on a growing collection of controllers and merged signals, both numbered in the order of
their creation: subscribing and waiting under labels, aborting, clearing, dropping, merging, and
moving the clock.
-/

namespace DaemonRpc.Signal

/-- What became of a merged signal. -/
inductive Standing where
  | held
  | dropped
  /-- Merging failed. -/
  | failed
  deriving DecidableEq, Repr

/-- A step of a scenario. -/
inductive Step where
  | newController
  | subscribe (signal : Name Nat) (label : String) (effects : List (Effect Nat))
  | unsubscribe (label : String)
  | abort (controller : Nat)
  | clear (key : Nat)
  | drop (key : Nat)
  /-- Move the clock. -/
  | advance (time : Duration)
  | compose (sources : List (Name Nat)) (timeout : Option Duration) (hasClock : Bool)
  /-- Wait for a signal. -/
  | wait (signal : Name Nat) (label : String)
  /-- Ask whether waiting is over. -/
  | poll (label : String)
  deriving DecidableEq, Repr

/-- The answer of a step. -/
inductive Answer where
  | done
  /-- Whether the step had an effect. -/
  | accepted (yes : Bool)
  | error (cause : Error)
  | pending
  | fired (reason : AbortReason)
  /-- Waiting was over before. -/
  | gone
  deriving DecidableEq, Repr

/-- What a scenario has come to. -/
structure Scenario where
  /-- The signals; the keys of merged ones are their numbers. -/
  store : Store Nat := {}
  /-- How many controllers there are. -/
  controllers : Nat := 0
  /-- What became of the merged signals. -/
  merged : List Standing := []
  /-- The signal and the number of labelled listeners, if they got one. -/
  subscriptions : List (String × Option (Name Nat × Nat)) := []
  /-- The signals for which labels wait. -/
  waits : List (String × Name Nat) := []
  deriving DecidableEq, Repr

namespace Scenario

/-- Put an item under a label, in place of another. -/
def putLabel {α : Type} (label : String) (a : α) (l : List (String × α)) : List (String × α) :=
  (label, a) :: l.filter fun entry => entry.1 ≠ label

/-- One step: its answer and what is reported during it. -/
def step (s : Scenario) : Step → Scenario × Answer × List (Event Nat)
  | .newController =>
    ({ s with store := s.store.addController s.controllers, controllers := s.controllers + 1 },
      .done, [])
  | .subscribe signal label effects =>
    let (store, number, events) := s.store.subscribe signal label effects
    let subscription := number.map fun n => (signal, n)
    ({ s with store, subscriptions := putLabel label subscription s.subscriptions },
      .accepted number.isSome, events)
  | .unsubscribe label =>
    match (s.subscriptions.lookup label).join with
    | none => (s, .done, [])
    | some (signal, number) =>
      let (store, found) := s.store.unsubscribe signal number
      ({ s with store }, .accepted found, [])
  | .abort controller =>
    let (store, events) := s.store.abort controller
    ({ s with store }, .done, events)
  | .clear key => ({ s with store := s.store.clear key }, .done, [])
  | .drop key =>
    ({ s with store := s.store.clear key, merged := s.merged.set key .dropped }, .done, [])
  | .advance time =>
    let (store, events) := s.store.advance time
    ({ s with store }, .done, events)
  | .compose sources timeout hasClock =>
    match s.store.compose? hasClock s.merged.length sources timeout with
    | .ok store => ({ s with store, merged := s.merged ++ [.held] }, .done, [])
    | .error cause => ({ s with merged := s.merged ++ [.failed] }, .error cause, [])
  | .wait signal label => ({ s with waits := putLabel label signal s.waits }, .done, [])
  | .poll label =>
    match s.waits.lookup label with
    | none => (s, .gone, [])
    | some signal =>
      match s.store.awaited? signal with
      | none => (s, .pending, [])
      | some reason =>
        ({ s with waits := s.waits.filter fun entry => entry.1 ≠ label }, .fired reason, [])

/-- Steps one after the other. -/
def runSteps (s : Scenario) (steps : List Step) : Scenario :=
  steps.foldl (fun s step => (s.step step).1) s

end Scenario

end DaemonRpc.Signal

import DaemonRpc.Proofs.Signal.Moments
import DaemonRpc.Signal.Scenario

/-!
# The steps of a scenario

A step of a scenario has one task (`Scenario.task?`), moves the clock, or changes the store at once:
`Scenario.changed_step` lists what a step may do to the store. A cascade has moments, and so has a
step (`Scenario.moments`): what is reported in a step is reported at its moments
(`Scenario.events_step`), and the invariants of cascades hold at them.
-/

namespace DaemonRpc.Signal

/-- How far a step moves the clock, if it does. -/
def Step.time? : Step → Option Duration
  | .advance time => some time
  | _ => none

namespace Scenario

/-- The task of a step, if it has one. Merging, moving the clock and asking have none. -/
def task? (s : Scenario) : Step → Option (Task Nat)
  | .subscribe signal label effects =>
    -- A listener that is too late is called at once.
    (s.store.reason? signal).map fun reason => .deliver (.call 0 label effects) reason
  | .abort controller => some (.fire (.controller controller) .aborted)
  | .clear key | .drop key => some (.perform (.clear key))
  | _ => none

/-- The moments of a step. -/
def moments (s : Scenario) (step : Step) : List (Moment Nat) :=
  match s.task? step with
  | some task => s.store.moments [task]
  | none => step.time?.elim [] s.store.advanceMoments

/-- What is reported in steps one after the other. -/
def events : Scenario → List Step → List (Event Nat)
  | _, [] => []
  | s, step :: steps => (s.step step).2.2 ++ events (s.step step).1 steps

theorem runSteps_append (s : Scenario) (steps more : List Step) :
    s.runSteps (steps ++ more) = (s.runSteps steps).runSteps more :=
  List.foldl_append

variable {s : Scenario} {step : Step} {task : Task Nat}

/-- A step that has a task works through it. -/
theorem step_of_task (h : s.task? step = some task) :
    (s.step step).1.store = (s.store.run [task]).1 ∧
      (s.step step).2.2 = (s.store.run [task]).2 := by
  have hclear : ∀ key, s.store.run [.perform (.clear key)] = (s.store.clear key, []) := by
    intro key
    rw [Store.run, Store.run]
  cases step with
  | subscribe signal label effects =>
    obtain ⟨reason, hreason, rfl⟩ := Option.map_eq_some_iff.1 h
    simp only [Scenario.step, Store.subscribe, hreason, and_self]
  | abort controller =>
    obtain rfl := Option.some.inj h
    exact ⟨rfl, rfl⟩
  | clear key | drop key =>
    obtain rfl := Option.some.inj h
    rw [hclear]
    exact ⟨rfl, rfl⟩
  | _ => simp [task?] at h

theorem moments_of_task (h : s.task? step = some task) :
    s.moments step = s.store.moments [task] := by
  rw [moments, h]

/-- What is reported in a step is reported at its moments. -/
theorem events_step (s : Scenario) (step : Step) :
    (s.step step).2.2 = (s.moments step).flatMap fun m => (m.store.work m.task).events := by
  cases htask : s.task? step with
  | some task => rw [(step_of_task htask).2, moments_of_task htask, Store.events_run]
  | none =>
    cases step with
    | advance time => exact Store.events_expireAll _ _
    | abort | clear | drop => simp [task?] at htask
    | subscribe signal label effects =>
      have hreason : s.store.reason? signal = none := Option.map_eq_none_iff.1 htask
      simp [Scenario.step, Store.subscribe, moments, hreason, task?, Step.time?]
    | unsubscribe label | poll label =>
      simp only [moments, htask, Step.time?, Option.elim_none, List.flatMap_nil, Scenario.step]
      split
      · rfl
      · first | rfl | (split <;> rfl)
    | compose sources timeout hasClock =>
      simp only [moments, htask, Step.time?, Option.elim_none, List.flatMap_nil, Scenario.step]
      split <;> rfl
    | newController | wait => rfl

/-- Merging fails for a timeout if no clock runs. -/
theorem step_compose (s : Scenario) (sources : List (Name Nat)) (timeout : Option Duration)
    (hasClock : Bool) :
    s.step (.compose sources timeout hasClock) =
      if (s.store.deadline? timeout).isSome && !hasClock then
        ({ s with merged := s.merged ++ [.failed] }, .error (.configuration .noClock), [])
      else
        ({ s with
          store := s.store.compose s.merged.length sources timeout
          merged := s.merged ++ [.held] }, .done, []) := by
  rw [step, Store.compose?]
  cases (s.store.deadline? timeout).isSome && !hasClock <;> rfl

/-- Asking ends a waiting, and changes nothing else. -/
theorem step_poll (s : Scenario) (label : String) :
    ∃ waits, (s.step (.poll label)).1 = { s with waits } := by
  rw [step]
  split
  · exact ⟨s.waits, rfl⟩
  · split
    · exact ⟨s.waits, rfl⟩
    · exact ⟨_, rfl⟩

/-- What a step may do to the store. -/
inductive Changed (s : Scenario) (step : Step) : Store Nat → Prop
  | same : Changed s step s.store
  | ran {task : Task Nat} (h : s.task? step = some task) : Changed s step (s.store.run [task]).1
  | advanced (time : Duration) : Changed s step (s.store.advance time).1
  | added : Changed s step (s.store.addController s.controllers)
  | attached {signal : Name Nat} {label : String} {effects : List (Effect Nat)}
      (h : step = .subscribe signal label effects) (hunfired : s.store.reason? signal = none) :
      Changed s step (s.store.attach signal label effects)
  | unsubscribed (signal : Name Nat) (id : Nat) {label : String} (h : step = .unsubscribe label)
      (hlabel : (s.subscriptions.lookup label).join = some (signal, id)) :
      Changed s step (s.store.unsubscribe signal id).1
  | composed (sources : List (Name Nat)) (timeout : Option Duration) :
      Changed s step (s.store.compose s.merged.length sources timeout)

theorem changed_step (s : Scenario) (step : Step) : Changed s step (s.step step).1.store := by
  cases htask : s.task? step with
  | some task =>
    rw [(step_of_task htask).1]
    exact .ran htask
  | none =>
    cases step with
    | abort | clear | drop => simp [task?] at htask
    | newController => exact .added
    | advance time => exact .advanced time
    | subscribe signal label effects =>
      have hreason : s.store.reason? signal = none := Option.map_eq_none_iff.1 htask
      have hstore : (s.step (.subscribe signal label effects)).1.store =
          s.store.attach signal label effects := by
        simp only [Scenario.step, Store.subscribe, hreason]
      rw [hstore]
      exact .attached rfl hreason
    | unsubscribe label =>
      rw [Scenario.step]
      split
      · exact .same
      · next hlabel => exact .unsubscribed _ _ rfl hlabel
    | compose sources timeout hasClock =>
      rw [Scenario.step, Store.compose?]
      split
      · next hstore =>
        split at hstore
        · cases hstore
        · obtain rfl := Except.ok.inj hstore
          exact .composed sources timeout
      · exact .same
    | wait signal label => exact .same
    | poll label =>
      rw [Scenario.step]
      split
      · exact .same
      · split <;> exact .same

/-! ## Invariants at the moments of a step -/

variable {P : List (Task Nat) → Store Nat → Prop}

/-- An invariant of cascades holds at each moment of a step. -/
theorem forall_moments (hP : Store.Lasting P) (h : P [] s.store)
    (hstart : ∀ task, s.task? step = some task → P [task] s.store) :
    ∀ m ∈ s.moments step, P (m.task :: m.rest) m.store := by
  cases htask : s.task? step with
  | some task =>
    rw [moments_of_task htask]
    exact hP.moments (hstart task htask)
  | none =>
    cases step with
    | advance time =>
      rw [moments, htask]
      exact hP.advanceMoments h time
    | _ => simp [moments, htask, Step.time?]

/-- What holds after the work of a moment holds after the step. -/
theorem step_of_moment (hP : Store.Lasting P) {m : Moment Nat} (hm : m ∈ s.moments step)
    (h : P ((m.store.work m.task).tasks ++ m.rest) (m.store.work m.task).store) :
    P [] (s.step step).1.store := by
  cases htask : s.task? step with
  | some task =>
    rw [moments_of_task htask] at hm
    rw [(step_of_task htask).1]
    exact hP.run_of_moment hm h
  | none =>
    cases step with
    | advance time => exact hP.advance_of_moment hm h
    | _ => simp [moments, htask, Step.time?] at hm

end Scenario

end DaemonRpc.Signal

import DaemonRpc.Proofs.Signal.Steps

/-!
# Which listeners are called

A script says which labels belong to which signals: those of the listeners that its steps subscribe,
and that these listeners subscribe in turn (`Step.labels`). A label is reported only if one of its
signals has fired, with the reason that is reported (`Scenario.fired_of_called`).
-/

namespace DaemonRpc.Signal

/-- The label that an effect subscribes, with its signal. -/
def Effect.label? {κ : Type} : Effect κ → Option (String × Name κ)
  | .subscribe signal label => some (label, signal)
  | _ => none

/-- The labels of the listeners that come from a step, with their signals. -/
def Step.labels : Step → List (String × Name Nat)
  | .subscribe signal label effects => (label, signal) :: effects.filterMap Effect.label?
  | _ => []

namespace Store

variable {κ : Type} [DecidableEq κ] {script : List (String × Name κ)} {s t : Store κ}

/-- The listener may be attached to the signal: its labels belong to their signals. -/
def Allows (script : List (String × Name κ)) (name : Name κ) : Listener κ → Prop
  | .call _ label effects => (label, name) ∈ script ∧ effects.filterMap Effect.label? ⊆ script
  | .relay _ => True

/-- What the task reports belongs to a signal that has fired, or is subscribed by the script. -/
def Justifies (script : List (String × Name κ)) (s : Store κ) : Task κ → Prop
  | .deliver (.call _ label effects) reason =>
    (∃ name, (label, name) ∈ script ∧ s.reason? name = some reason) ∧
      effects.filterMap Effect.label? ⊆ script
  | .perform (.subscribe name label) => (label, name) ∈ script
  | _ => True

/-- The listeners and the tasks are those of a script. -/
structure Follows (script : List (String × Name κ)) (tasks : List (Task κ)) (s : Store κ) :
    Prop where
  attached : ∀ name, ∀ listener ∈ s.listeners name, Allows script name listener
  justified : ∀ task ∈ tasks, Justifies script s task

/-- Signals only fire, so a task stays justified. -/
theorem Touched.justifies (h : Touched s t) {task : Task κ} (htask : Justifies script s task) :
    Justifies script t task := by
  match task with
  | .deliver (.call _ label effects) reason =>
    obtain ⟨⟨name, hname, hreason⟩, heffects⟩ := htask
    exact ⟨⟨name, hname, h.reason? hreason⟩, heffects⟩
  | .perform (.subscribe name label) => exact htask
  | .deliver (.relay _) _ | .perform (.abort _) | .perform (.clear _) | .perform (.count _)
  | .fire _ _ | .detach _ => trivial

/-- The listeners of a signal that fires are called for it. -/
theorem justifies_deliverAll
    (h : ∀ name, ∀ listener ∈ s.listeners name, Allows script name listener) {name : Name κ}
    (hwaits : s.waits name = true) (reason : AbortReason) :
    ∀ task ∈ deliverAll (s.listeners name) reason,
      Justifies script (s.markFired name reason) task := by
  refine List.forall_mem_map.2 fun listener hlistener => ?_
  have hallows := h name listener hlistener
  cases listener with
  | relay key => trivial
  | call id label effects =>
    refine ⟨⟨name, hallows.1, ?_⟩, hallows.2⟩
    rw [reason?_markFired (has_of_waits hwaits), if_pos rfl]

theorem allows_markFired (h : ∀ name, ∀ listener ∈ s.listeners name, Allows script name listener)
    (name : Name κ) (reason : AbortReason) :
    ∀ other, ∀ listener ∈ (s.markFired name reason).listeners other,
      Allows script other listener := by
  intro other listener hlistener
  rw [listeners_markFired] at hlistener
  split at hlistener
  · cases hlistener
  · exact h other listener hlistener

theorem allows_attach (h : ∀ name, ∀ listener ∈ s.listeners name, Allows script name listener)
    {name : Name κ} {label : String} {effects : List (Effect κ)} (hlabel : (label, name) ∈ script)
    (heffects : effects.filterMap Effect.label? ⊆ script) :
    ∀ other, ∀ listener ∈ (s.attach name label effects).listeners other,
      Allows script other listener := by
  intro other listener hlistener
  rw [listeners_attach] at hlistener
  rcases List.mem_append.1 hlistener with hlistener | hlistener
  · exact h other listener hlistener
  · split at hlistener
    · next hother =>
      rw [List.mem_singleton.1 hlistener, hother.1]
      exact ⟨hlabel, heffects⟩
    · cases hlistener

theorem allows_detach (h : ∀ name, ∀ listener ∈ s.listeners name, Allows script name listener)
    (key : κ) :
    ∀ name, ∀ listener ∈ (s.detach key).listeners name, Allows script name listener := by
  intro name listener hlistener
  rw [listeners_detach] at hlistener
  exact h name listener (List.mem_of_mem_filter hlistener)

/-- Every work keeps to the script. -/
theorem Follows.work {task : Task κ} {rest : List (Task κ)} (h : Follows script (task :: rest) s) :
    Follows script ((s.work task).tasks ++ rest) (s.work task).store := by
  obtain ⟨htask, hrest⟩ := List.forall_mem_cons.1 h.justified
  have hlater : ∀ task' ∈ rest, Justifies script (s.work task).store task' :=
    fun task' htask' => (s.touched_work task).justifies (hrest task' htask')
  -- What is left is about what has just been attached and what is to be done in consequence.
  suffices hnew : (∀ name, ∀ listener ∈ (s.work task).store.listeners name,
      Allows script name listener) ∧
        ∀ task' ∈ (s.work task).tasks, Justifies script (s.work task).store task' from
    ⟨hnew.1, List.forall_mem_append.2 ⟨hnew.2, hlater⟩⟩
  match task with
  | .fire name reason =>
    rw [Store.work]
    split
    · next hwaits =>
      exact ⟨allows_markFired h.attached name reason, justifies_deliverAll h.attached hwaits reason⟩
    · exact ⟨h.attached, by simp⟩
  | .deliver (.relay key) reason =>
    rw [Store.work]
    split
    · next hwaits =>
      refine ⟨allows_markFired h.attached _ reason, List.forall_mem_append.2 ⟨?_, ?_⟩⟩
      · exact justifies_deliverAll h.attached hwaits reason
      · exact List.forall_mem_singleton.2 trivial
    · split
      · exact ⟨h.attached, by simp⟩
      · exact ⟨allows_detach h.attached key, by simp⟩
  | .deliver (.call _ label effects) reason =>
    refine ⟨h.attached, List.forall_mem_map.2 fun effect heffect => ?_⟩
    cases effect with
    | subscribe name label => exact htask.2 (List.mem_filterMap.2 ⟨_, heffect, rfl⟩)
    | abort | clear | count => trivial
  | .perform (.subscribe name label) =>
    rw [Store.work]
    split
    · exact ⟨h.attached, by simp⟩
    · exact ⟨allows_attach h.attached htask (List.nil_subset _), by simp⟩
  | .perform (.abort n) => exact ⟨h.attached, List.forall_mem_singleton.2 trivial⟩
  | .perform (.clear key) | .detach key =>
    exact ⟨allows_detach h.attached key, by simp [Store.work]⟩
  | .perform (.count name) => exact ⟨h.attached, by simp [Store.work]⟩

theorem lasting_follows (script : List (String × Name κ)) : Lasting (Follows script) where
  work _ _ _ h := h.work
  expire _ _ _ h := ⟨h.attached, List.forall_mem_singleton.2 trivial⟩
  clock _ _ h := ⟨h.attached, by simp⟩

/-- What is reported in a work belongs to a signal that has fired. -/
theorem fired_of_work {task : Task κ} (h : Justifies script s task) {label : String}
    {reason : AbortReason} (hcalled : .called label reason ∈ (s.work task).events) :
    ∃ name, (label, name) ∈ script ∧ s.reason? name = some reason := by
  match task with
  | .deliver (.call _ _ _) _ =>
    obtain ⟨rfl, rfl⟩ := Event.called.inj (List.mem_singleton.1 hcalled)
    exact h.1
  | .perform (.subscribe name other) =>
    rw [work] at hcalled
    split at hcalled
    · next r hreason =>
      obtain ⟨rfl, rfl⟩ : label = other ∧ reason = r := by simpa using hcalled
      exact ⟨name, h, hreason⟩
    · simp at hcalled
  | .fire _ _ | .deliver (.relay _) _ =>
    rw [work] at hcalled
    repeat' split at hcalled
    all_goals simp at hcalled
  | .perform (.abort _) | .perform (.clear _) | .perform (.count _) | .detach _ =>
    simp [work] at hcalled

end Store

namespace Scenario

variable {s : Scenario} {script : List (String × Name Nat)}

/-- No step takes back that a signal has fired. -/
theorem reason?_step {name : Name Nat} {reason : AbortReason}
    (h : s.store.reason? name = some reason) (step : Step) :
    (s.step step).1.store.reason? name = some reason := by
  have hchanged := s.changed_step step
  generalize (s.step step).1.store = t at hchanged
  cases hchanged with
  | same => exact h
  | ran _ => exact (Store.lasting_reason? name reason).run h
  | advanced time => exact (Store.lasting_reason? name reason).advance h time
  | added => rwa [Store.reason?_addController]
  | attached _ _ => rwa [Store.reason?_attach]
  | unsubscribed signal id => rwa [Store.reason?_unsubscribe]
  | composed sources timeout => exact Store.reason?_compose_of_fired h _ sources timeout

theorem reason?_runSteps {name : Name Nat} {reason : AbortReason}
    (h : s.store.reason? name = some reason) (steps : List Step) :
    (s.runSteps steps).store.reason? name = some reason := by
  induction steps generalizing s with
  | nil => exact h
  | cons step steps ih => exact ih (reason?_step h step)

/-- The task of a step is one of its script. -/
theorem justifies_of_task {step : Step} (hlabels : step.labels ⊆ script) {task : Task Nat}
    (htask : s.task? step = some task) : Store.Justifies script s.store task := by
  cases step with
  | subscribe signal label effects =>
    obtain ⟨reason, hreason, rfl⟩ := Option.map_eq_some_iff.1 htask
    obtain ⟨hlabel, heffects⟩ := List.cons_subset.1 hlabels
    exact ⟨⟨signal, hlabel, hreason⟩, heffects⟩
  | abort | clear | drop =>
    obtain rfl := Option.some.inj htask
    trivial
  | _ => simp [task?] at htask

/-- A step keeps to a script that has its labels. -/
theorem follows_step (h : s.store.Follows script []) {step : Step}
    (hlabels : step.labels ⊆ script) : (s.step step).1.store.Follows script [] := by
  have hchanged := s.changed_step step
  generalize (s.step step).1.store = t at hchanged
  cases hchanged with
  | same => exact h
  | ran htask =>
    exact (Store.lasting_follows script).run
      ⟨h.attached, List.forall_mem_singleton.2 (justifies_of_task hlabels htask)⟩
  | advanced time => exact (Store.lasting_follows script).advance h time
  | added =>
    refine ⟨fun name listener hlistener => ?_, by simp⟩
    rw [Store.listeners_addController] at hlistener
    exact h.attached name listener hlistener
  | attached hstep _ =>
    subst hstep
    obtain ⟨hlabel, heffects⟩ := List.cons_subset.1 hlabels
    exact ⟨Store.allows_attach h.attached hlabel heffects, by simp⟩
  | unsubscribed signal id =>
    refine ⟨fun name listener hlistener => ?_, by simp⟩
    rw [Store.listeners_unsubscribe] at hlistener
    split at hlistener
    · exact h.attached name listener (List.mem_of_mem_filter hlistener)
    · exact h.attached name listener hlistener
  | composed sources timeout =>
    refine ⟨fun name listener hlistener => ?_, by simp⟩
    rw [Store.listeners_compose] at hlistener
    rcases List.mem_append.1 hlistener with hlistener | hlistener
    · exact h.attached name listener hlistener
    · rw [List.eq_of_mem_replicate hlistener]
      trivial

theorem fired_of_mem_events (h : s.store.Follows script []) {steps : List Step}
    (hlabels : steps.flatMap Step.labels ⊆ script) {label : String} {reason : AbortReason}
    (hcalled : .called label reason ∈ s.events steps) :
    ∃ name, (label, name) ∈ script ∧ (s.runSteps steps).store.reason? name = some reason := by
  induction steps generalizing s with
  | nil => cases hcalled
  | cons step steps ih =>
    obtain ⟨hfirst, hmore⟩ := List.append_subset.1 hlabels
    rcases List.mem_append.1 hcalled with hcalled | hcalled
    · rw [events_step] at hcalled
      obtain ⟨m, hm, hevent⟩ := List.mem_flatMap.1 hcalled
      have hfollows := forall_moments (Store.lasting_follows script) h
        (fun task htask => ⟨h.attached,
          List.forall_mem_singleton.2 (justifies_of_task hfirst htask)⟩) m hm
      obtain ⟨name, hname, hreason⟩ :=
        Store.fired_of_work (hfollows.justified m.task List.mem_cons_self) hevent
      -- The signal has fired at the moment of the report, and so it has at the end.
      have hstep := step_of_moment (Store.lasting_reason? name reason) hm
        ((m.store.touched_work m.task).reason? hreason)
      exact ⟨name, hname, reason?_runSteps hstep steps⟩
    · exact ih (follows_step h hfirst) hmore hcalled

/-- A label is reported only if one of its signals has fired, with the reason that is reported. -/
theorem fired_of_called {steps : List Step} {label : String} {reason : AbortReason}
    (hcalled : .called label reason ∈ ({} : Scenario).events steps) :
    ∃ name, (label, name) ∈ steps.flatMap Step.labels ∧
      (({} : Scenario).runSteps steps).store.reason? name = some reason :=
  fired_of_mem_events ⟨fun _ _ hlistener => absurd hlistener List.not_mem_nil, by simp⟩
    (List.Subset.refl _) hcalled

end Scenario

end DaemonRpc.Signal

import DaemonRpc.Proofs.Signal.Bookkeeping
import DaemonRpc.Proofs.Signal.Reports

/-!
# Cleared signals

A merged signal that is cleared before it fires is not attached to anything any more, and its timer
is stopped (`Store.Deaf`). Relays to it may be on their way: while a source of the signal fires, the
listeners of the source have been taken from it and wait to be called. If such a relay waits behind
the effect that clears the signal, the signal fires after all; if none waits, it stays silent
whatever follows (`Scenario.silent_iff`).
-/

namespace DaemonRpc.Signal

namespace Store

variable {key : Nat} {s t : Store Nat}

/-! ## Signals that nothing reaches -/

/-- A merged signal has not fired, its timer does not run, and it is not attached to any signal. -/
structure Deaf (key : Nat) (s : Store Nat) : Prop where
  unfired : s.reason? (.merged key) = none
  stopped : s.hasTimer key = false
  unattached : ∀ name, .relay key ∉ s.listeners name

/-- Clearing a signal that has not fired. -/
theorem deaf_clear (h : s.reason? (.merged key) = none) : (s.clear key).Deaf key where
  unfired := by rwa [reason?_clear]
  stopped := by simp [hasTimer_clear]
  unattached name := by simp [listeners_clear]

/-- Nothing is attached but what was before, and no timer was started. -/
theorem Deaf.mono (h : s.Deaf key) (hreason : t.reason? (.merged key) = s.reason? (.merged key))
    (htimer : t.hasTimer key = true → s.hasTimer key = true)
    (hlisteners : ∀ name, .relay key ∈ t.listeners name → .relay key ∈ s.listeners name) :
    t.Deaf key where
  unfired := hreason.trans h.unfired
  stopped := by
    rw [← Bool.not_eq_true]
    intro hrunning
    simp [h.stopped] at htimer
    simp [hrunning] at htimer
  unattached name hmem := h.unattached name (hlisteners name hmem)

theorem Deaf.markFired (h : s.Deaf key) {name : Name Nat} (hwaits : s.waits name = true)
    (hname : name ≠ .merged key) (reason : AbortReason) : (s.markFired name reason).Deaf key := by
  refine h.mono ?_ id ?_
  · rw [reason?_markFired (has_of_waits hwaits), if_neg hname.symm]
  · intro other hmem
    rw [listeners_markFired] at hmem
    split at hmem
    · cases hmem
    · exact hmem

theorem Deaf.attach (h : s.Deaf key) (name : Name Nat) (label : String)
    (effects : List (Effect Nat)) : (s.attach name label effects).Deaf key := by
  refine h.mono (reason?_attach ..) id ?_
  intro other hmem
  rw [listeners_attach] at hmem
  rcases List.mem_append.1 hmem with hmem | hmem
  · exact hmem
  · split at hmem <;> simp at hmem

theorem Deaf.unsubscribe (h : s.Deaf key) (name : Name Nat) (id : Nat) :
    (s.unsubscribe name id).1.Deaf key := by
  refine h.mono (reason?_unsubscribe ..) (fun htimer => htimer) ?_
  intro other hmem
  rw [listeners_unsubscribe] at hmem
  split at hmem
  · exact List.mem_of_mem_filter hmem
  · exact hmem

theorem Deaf.detach (h : s.Deaf key) (other : Nat) : (s.detach other).Deaf key := by
  refine h.mono (reason?_detach ..) ?_ ?_
  · intro htimer
    rw [hasTimer_detach] at htimer
    exact (Bool.and_eq_true_iff.1 htimer).2
  · intro name hmem
    rw [listeners_detach] at hmem
    exact List.mem_of_mem_filter hmem

theorem Deaf.clear (h : s.Deaf key) (other : Nat) : (s.clear other).Deaf key :=
  (h.detach other).mono (by rw [reason?_clear, reason?_detach])
    (by rw [hasTimer_clear, hasTimer_detach]; exact id)
    fun name => by rw [listeners_clear, listeners_detach]; exact id

theorem Deaf.addController (h : s.Deaf key) (n : Nat) : (s.addController n).Deaf key :=
  h.mono (reason?_addController ..) id fun name => by rw [listeners_addController]; exact id

/-- Another signal is merged. -/
theorem Deaf.compose (h : s.Deaf key) {other : Nat} (hother : key ≠ other)
    (sources : List (Name Nat)) (timeout : Option Duration) :
    (s.compose other sources timeout).Deaf key := by
  refine h.mono ?_ ?_ ?_
  · exact reason?_compose_of_ne _ _ _ _ (by simpa using hother)
  · rw [hasTimer, merge?_compose_of_ne _ hother, ← hasTimer]
    exact id
  · intro name hmem
    rw [listeners_compose] at hmem
    rcases List.mem_append.1 hmem with hmem | hmem
    · exact hmem
    · exact absurd (Listener.relay.inj (List.eq_of_mem_replicate hmem)) hother

/-! ## While signals fire -/

/-- Nothing reaches the merged signal, and no relay to it is on its way. -/
structure Mute (key : Nat) (tasks : List (Task Nat)) (s : Store Nat) : Prop where
  deaf : s.Deaf key
  undelivered : ∀ reason, .deliver (.relay key) reason ∉ tasks
  unforced : ∀ task ∈ tasks, task.isForced = false

/-- The listeners of a signal are no relays to one that is not attached. -/
theorem Deaf.not_mem_deliverAll (h : s.Deaf key) (name : Name Nat) (reason r : AbortReason) :
    .deliver (.relay key) r ∉ deliverAll (s.listeners name) reason := by
  intro hmem
  obtain ⟨listener, hlistener, htask⟩ := List.mem_map.1 hmem
  obtain ⟨rfl, -⟩ := Task.deliver.inj htask
  exact h.unattached name hlistener

/-- No work reaches a signal that is not attached. -/
theorem Mute.work {task : Task Nat} {rest : List (Task Nat)} (h : Mute key (task :: rest) s) :
    Mute key ((s.work task).tasks ++ rest) (s.work task).store := by
  have hrest : ∀ reason, .deliver (.relay key) reason ∉ rest :=
    fun reason hmem => h.undelivered reason (List.mem_cons_of_mem task hmem)
  suffices hnew : (s.work task).store.Deaf key ∧
      ∀ reason, .deliver (.relay key) reason ∉ (s.work task).tasks from
    ⟨hnew.1, fun reason hmem => (List.mem_append.1 hmem).elim (hnew.2 reason) (hrest reason),
      lasting_unforced.work task rest s h.unforced⟩
  match task with
  | .fire (.controller n) reason =>
    rw [Store.work]
    split
    · next hwaits =>
      exact ⟨h.deaf.markFired hwaits (by simp) reason, h.deaf.not_mem_deliverAll _ reason⟩
    · exact ⟨h.deaf, by simp⟩
  | .fire (.merged _) _ => exact Bool.noConfusion (h.unforced _ List.mem_cons_self)
  | .deliver (.relay other) reason =>
    have hother : other ≠ key := by
      rintro rfl
      exact h.undelivered reason List.mem_cons_self
    rw [Store.work]
    split
    · next hwaits =>
      refine ⟨h.deaf.markFired hwaits (by simpa using hother) reason, fun r hmem => ?_⟩
      rcases List.mem_append.1 hmem with hmem | hmem
      · exact h.deaf.not_mem_deliverAll _ reason r hmem
      · simp at hmem
    · split
      · exact ⟨h.deaf, by simp⟩
      · exact ⟨h.deaf.detach other, by simp⟩
  | .deliver (.call _ _ effects) _ => exact ⟨h.deaf, by simp [Store.work, performAll]⟩
  | .perform (.subscribe name label) =>
    rw [Store.work]
    split
    · exact ⟨h.deaf, by simp⟩
    · exact ⟨h.deaf.attach name label [], by simp⟩
  | .perform (.abort n) | .perform (.count name) => exact ⟨h.deaf, by simp [Store.work]⟩
  | .perform (.clear other) => exact ⟨h.deaf.clear other, by simp [Store.work]⟩
  | .detach other => exact ⟨h.deaf.detach other, by simp [Store.work]⟩

theorem lasting_mute (key : Nat) : Lasting (Mute key) where
  work _ _ _ h := h.work
  expire s other htimer h := by
    have hother : other ≠ key := by
      rintro rfl
      rw [h.deaf.stopped] at htimer
      cases htimer
    exact ⟨h.deaf, by simp [Ne.symm hother], List.forall_mem_singleton.2 rfl⟩
  clock _ _ h := ⟨h.deaf.mono rfl id fun _ => id, h.undelivered, h.unforced⟩

/-- A relay that is on its way fires its signal, if that is there. -/
theorem lasting_delivered (key : Nat) :
    Lasting fun tasks (s : Store Nat) => s.has (.merged key) = true ∧
      ((∃ reason, .deliver (.relay key) reason ∈ tasks) ∨
        (s.reason? (.merged key)).isSome = true) where
  work task rest s h := by
    obtain ⟨hhas, htasks⟩ := h
    have htouched := s.touched_work task
    refine ⟨(htouched.has _).trans hhas, ?_⟩
    -- Once the signal has fired, that stays so.
    have hfired : (s.reason? (.merged key)).isSome = true →
        ((s.work task).store.reason? (.merged key)).isSome = true := by
      intro hsome
      obtain ⟨reason, hreason⟩ := Option.isSome_iff_exists.1 hsome
      rw [htouched.reason? hreason]
      rfl
    rcases htasks with ⟨reason, hmem⟩ | hsome
    · rcases List.mem_cons.1 hmem with rfl | hmem
      · refine .inr ?_
        cases hreason : s.reason? (.merged key) with
        | some r => exact hfired (by rw [hreason]; rfl)
        | none =>
          have hwaits : s.waits (.merged key) = true := by simp [waits, hhas, hreason]
          rw [Store.work, if_pos hwaits, reason?_markFired hhas, if_pos rfl]
          rfl
      · exact .inl ⟨reason, List.mem_append_right _ hmem⟩
    · exact .inr (hfired hsome)
  expire _ _ _ h := ⟨h.1, h.2.imp (fun ⟨_, hmem⟩ => absurd hmem List.not_mem_nil) id⟩
  clock _ _ h := h

end Store

/-! ## Scenarios -/

namespace Scenario

variable {s : Scenario} {key : Nat}

/-- After these steps a merged signal is silent: it has not fired, its timer does not run, and no
listener was called that has a label of this signal only. -/
structure Silent (key : Nat) (steps : List Step) : Prop where
  unfired : (({} : Scenario).runSteps steps).store.reason? (.merged key) = none
  stopped : (({} : Scenario).runSteps steps).store.hasTimer key = false
  uncalled : ∀ label,
    (∀ signal, (label, signal) ∈ steps.flatMap Step.labels → signal = .merged key) →
      ∀ reason, .called label reason ∉ ({} : Scenario).events steps

theorem length_merged_step (s : Scenario) (step : Step) :
    s.merged.length ≤ (s.step step).1.merged.length := by
  cases step with
  | drop key => simp [Scenario.step]
  | compose sources timeout hasClock =>
    rw [Scenario.step]
    split <;> simp
  | unsubscribe label =>
    rw [Scenario.step]
    split <;> simp
  | poll label =>
    rw [Scenario.step]
    repeat' split
    all_goals simp
  | _ => exact Nat.le_refl _

theorem length_merged_runSteps (s : Scenario) (steps : List Step) :
    s.merged.length ≤ (s.runSteps steps).merged.length := by
  induction steps generalizing s with
  | nil => exact Nat.le_refl _
  | cons step steps ih => exact Nat.le_trans (s.length_merged_step step) (ih _)

/-- No step fires a merged signal or calls a relay to one. -/
theorem direct_of_task {step : Step} {task : Task Nat} (h : s.task? step = some task) :
    task.isForced = false ∧ ∀ key reason, task ≠ .deliver (.relay key) reason := by
  cases step with
  | subscribe signal label effects =>
    obtain ⟨reason, -, rfl⟩ := Option.map_eq_some_iff.1 h
    exact ⟨rfl, by simp⟩
  | abort | clear | drop =>
    obtain rfl := Option.some.inj h
    exact ⟨rfl, by simp⟩
  | _ => simp [task?] at h

/-- No step reaches a merged signal that is not attached. -/
theorem deaf_step (h : s.store.Deaf key) (hkey : key < s.merged.length) (step : Step) :
    (s.step step).1.store.Deaf key := by
  have hchanged := s.changed_step step
  generalize (s.step step).1.store = t at hchanged
  cases hchanged with
  | same => exact h
  | ran htask =>
    obtain ⟨hforced, hrelay⟩ := direct_of_task htask
    exact ((Store.lasting_mute key).run ⟨h, fun reason hmem => hrelay key reason
      (List.mem_singleton.1 hmem).symm, List.forall_mem_singleton.2 hforced⟩).deaf
  | advanced time => exact ((Store.lasting_mute key).advance ⟨h, by simp, by simp⟩ time).deaf
  | added => exact h.addController _
  | attached _ _ => exact h.attach ..
  | unsubscribed signal id => exact h.unsubscribe signal id
  | composed sources timeout => exact h.compose (Nat.ne_of_lt hkey) sources timeout

theorem deaf_runSteps (h : s.store.Deaf key) (hkey : key < s.merged.length) (steps : List Step) :
    (s.runSteps steps).store.Deaf key := by
  induction steps generalizing s with
  | nil => exact h
  | cons step steps ih =>
    exact ih (deaf_step h hkey step) (Nat.lt_of_lt_of_le hkey (s.length_merged_step step))

/-- A signal that nothing reaches is silent. -/
theorem Silent.of_deaf {steps : List Step}
    (h : (({} : Scenario).runSteps steps).store.Deaf key) : Silent key steps where
  unfired := h.unfired
  stopped := h.stopped
  uncalled label hlabel reason hcalled := by
    obtain ⟨signal, hsignal, hfired⟩ := fired_of_called hcalled
    rw [hlabel signal hsignal, h.unfired] at hfired
    cases hfired

/-- A merged signal that is cleared before it fires stays silent whatever follows, if no relay to it
is on its way then, and only if none is. -/
theorem silent_iff {before : List Step} {step : Step} {m : Moment Nat} {key : Nat}
    (hm : m ∈ (({} : Scenario).runSteps before).moments step)
    (hclear : m.task = .perform (.clear key)) (hwaits : m.store.waits (.merged key) = true) :
    (∀ after, Silent key (before ++ step :: after)) ↔
      ∀ reason, .deliver (.relay key) reason ∉ m.rest := by
  let s := ({} : Scenario).runSteps before
  have hwork : m.store.work m.task = { store := m.store.clear key } := by rw [hclear]; rfl
  constructor
  · intro hsilent reason hmem
    -- The relay is called before the step is over.
    have hfired := step_of_moment (Store.lasting_delivered key) hm (by
      rw [hwork, Store.has_clear]
      exact ⟨Store.has_of_waits hwaits, .inl ⟨reason, hmem⟩⟩)
    have hunfired := (hsilent []).unfired
    rw [runSteps_append] at hunfired
    rw [show (s.step step).1.store.reason? (.merged key) = none from hunfired] at hfired
    simp at hfired
  · intro hrest after
    have hkey : key < s.merged.length := by
      have hhas := forall_moments (Store.lasting_has (.merged key) (s.store.has (.merged key))) rfl
        (fun _ _ => rfl) m hm
      rw [Store.has_of_waits hwaits] at hhas
      by_contra hlt
      rw [((Booked.runSteps (s := {}) .empty before).newKeys key (Nat.le_of_not_lt hlt)).1] at hhas
      cases hhas
    have hunforced := forall_moments Store.lasting_unforced (s := s) (by simp)
      (fun task htask => List.forall_mem_singleton.2 (direct_of_task htask).1) m hm
    have hmute : Store.Mute key ((m.store.work m.task).tasks ++ m.rest)
        (m.store.work m.task).store := by
      rw [hwork]
      exact ⟨Store.deaf_clear (Store.reason?_of_waits hwaits), hrest,
        (List.forall_mem_cons.1 hunforced).2⟩
    have hstep := (step_of_moment (Store.lasting_mute key) hm hmute).deaf
    apply Silent.of_deaf
    rw [runSteps_append]
    exact deaf_runSteps hstep (Nat.lt_of_lt_of_le hkey (s.length_merged_step step)) after

/-- A signal that is cleared by a step stays silent when its controller is aborted. -/
theorem silent_of_cleared :
    Silent 0 ([.newController, .compose [.controller 0] none true] ++ [.clear 0, .abort 0]) := by
  let s := ({} : Scenario).runSteps [.newController, .compose [.controller 0] none true]
  have hm : ⟨.perform (.clear 0), [], s.store⟩ ∈ s.moments (.clear 0) := by
    rw [moments_of_task rfl, Store.moments]
    exact List.mem_cons_self
  have hsilent := (silent_iff hm rfl (by decide)).2 (by simp)
  exact hsilent [.abort 0]

/-- A listener that was subscribed before the signals were merged clears the merged signal, while
the relay to it waits: the merged signal fires after it was cleared. -/
theorem fires_after_clear :
    let before : List Step := [.newController, .subscribe (.controller 0) "x" [.clear 0],
      .compose [.controller 0] none true]
    (∃ m ∈ (({} : Scenario).runSteps before).moments (.abort 0),
      m.task = .perform (.clear 0) ∧ m.store.waits (.merged 0) = true) ∧
        ((({} : Scenario).runSteps (before ++ [.abort 0])).store.reason? (.merged 0)).isSome =
          true := by
  intro before
  let s := (({} : Scenario).runSteps before).store
  let m : Moment Nat := ⟨.perform (.clear 0), [.deliver (.relay 0) .aborted],
    s.markFired (.controller 0) .aborted⟩
  have hm : m ∈ (({} : Scenario).runSteps before).moments (.abort 0) := by
    rw [moments_of_task rfl, Store.moments]
    -- The controller has fired, and the listener is called that was subscribed first.
    refine List.mem_cons_of_mem _ ?_
    show m ∈ Store.moments [.deliver (.call 0 "x" [.clear 0]) .aborted,
      .deliver (.relay 0) .aborted] (s.markFired (.controller 0) .aborted)
    rw [Store.moments]
    refine List.mem_cons_of_mem _ ?_
    show m ∈ Store.moments [.perform (.clear 0), .deliver (.relay 0) .aborted] m.store
    rw [Store.moments]
    exact List.mem_cons_self
  have hfired := step_of_moment (Store.lasting_delivered 0) hm
    ⟨by decide, .inl ⟨.aborted, List.mem_cons_self⟩⟩
  refine ⟨⟨m, hm, rfl, by decide⟩, ?_⟩
  rw [runSteps_append]
  exact hfired.2.resolve_left (by simp)

end Scenario

end DaemonRpc.Signal

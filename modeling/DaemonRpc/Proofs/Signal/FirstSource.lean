import DaemonRpc.Proofs.Signal.Following
import Mathlib.Data.List.ReduceOption
import Mathlib.Logic.Relation

/-!
# Merged signals fire as their first source does

In a scenario whose listeners are passive a merged signal is `Attentive` from the step that made it
until it fires or is cleared: none of its sources has fired, and the time of its timer has not come.
The step in which one of them fires or the time comes is the step in which the merged signal fires,
with the same reason (`Scenario.Attentive.reason?_step`). So it goes on from one merged signal to
the next that follows it, in the same step (`Scenario.Feeds`, `Scenario.reason?_of_feeds`).
`Scenario.first_source` is what holds of every merged signal after any steps.
-/

namespace DaemonRpc.Signal

namespace Step

/-- The step clears a merged signal. -/
def clears (key : Nat) : Step → Bool
  | .clear k | .drop k => k = key
  | _ => false

/-- The reason with which signals fire in a step, if listeners are passive. -/
def reason : Step → AbortReason
  | .advance _ => .timedOut
  | _ => .aborted

/-- The time that a step takes. -/
def nanoseconds (step : Step) : Nat := step.time?.elim 0 Duration.nanoseconds

end Step

/-- The time that steps take. -/
def elapsed (steps : List Step) : Nat := (steps.map Step.nanoseconds).sum

namespace Scenario

variable {s : Scenario} {key : Nat} {followed : List (Name Nat)} {limit : Option Nat}

/-! ## Passive listeners -/

/-- All listeners are passive, and there are books. -/
structure Calm (s : Scenario) : Prop where
  passive : s.store.Passive
  booked : ∃ deeds, Booked deeds s.controllers s.merged.length s.store

/-- What a step may do to the store if listeners are passive. -/
inductive Passed (s : Scenario) (step : Step) : Store Nat → Prop
  | same (htime : step.nanoseconds = 0) : Passed s step s.store
  | ran {tasks : List (Task Nat)} (htime : step.nanoseconds = 0)
      (h : s.store.Gentle step.reason tasks)
      (hquiet : ∀ key, ∀ task ∈ tasks, task.concerns key = false) :
      Passed s step (s.store.run tasks).1
  | advanced {time : Duration} (h : step = .advance time) : Passed s step (s.store.advance time).1
  | added (htime : step.nanoseconds = 0) : Passed s step (s.store.addController s.controllers)
  | attached (htime : step.nanoseconds = 0) (signal : Name Nat) (label : String)
      {effects : List (Effect Nat)} (heffects : effects.all Effect.isPassive = true) :
      Passed s step (s.store.attach signal label effects)
  | unsubscribed (htime : step.nanoseconds = 0) (signal : Name Nat) (id : Nat) :
      Passed s step (s.store.unsubscribe signal id).1
  | cleared (htime : step.nanoseconds = 0) {key : Nat} (h : step.clears key = true) :
      Passed s step (s.store.clear key)
  | composed (htime : step.nanoseconds = 0) (sources : List (Name Nat))
      (timeout : Option Duration) :
      Passed s step (s.store.compose s.merged.length sources timeout)

theorem passed_step (h : s.store.Passive) {step : Step} (hstep : step.isPassive = true) :
    Passed s step (s.step step).1.store := by
  cases step with
  | newController => exact .added rfl
  | advance time => exact .advanced rfl
  | clear key | drop key => exact .cleared rfl (decide_eq_true rfl)
  | wait signal label => exact .same rfl
  | abort controller =>
    exact .ran rfl ⟨h, List.forall_mem_singleton.2 rfl⟩ fun _ => List.forall_mem_singleton.2 rfl
  | poll label =>
    obtain ⟨waits, hpoll⟩ := s.step_poll label
    rw [hpoll]
    exact .same rfl
  | compose sources timeout hasClock =>
    rw [step_compose]
    split
    · exact .same rfl
    · exact .composed rfl sources timeout
  | unsubscribe label =>
    rw [step]
    cases (s.subscriptions.lookup label).join with
    | none => exact .same rfl
    | some subscription => exact .unsubscribed rfl subscription.1 subscription.2
  | subscribe signal label effects =>
    rw [step, Store.subscribe]
    cases s.store.reason? signal with
    | some reason =>
      have htask : ∀ task ∈ [Task.deliver (.call 0 label effects) reason],
          task.isGentle .aborted = true := List.forall_mem_singleton.2 hstep
      exact .ran rfl ⟨h, htask⟩ fun _ => List.forall_mem_singleton.2 rfl
    | none => exact .attached rfl signal label hstep

theorem passive_step (h : s.store.Passive) {step : Step} (hstep : step.isPassive = true) :
    (s.step step).1.store.Passive := by
  have hpassed := passed_step h hstep
  generalize (s.step step).1.store = t at hpassed
  cases hpassed with
  | same _ => exact h
  | ran _ hgentle _ => exact hgentle.run.gentle.passive
  | advanced _ => exact (h.advance _).gentle.passive
  | added _ => exact h.mono fun name => by rw [Store.listeners_addController]; exact fun _ => id
  | attached _ signal label heffects => exact h.attach signal label heffects
  | unsubscribed _ signal id =>
    refine h.mono fun name listener hlistener => ?_
    rw [Store.listeners_unsubscribe] at hlistener
    split at hlistener
    · exact List.mem_of_mem_filter hlistener
    · exact hlistener
  | cleared _ _ => exact h.clear _
  | composed _ sources timeout =>
    intro name listener hlistener
    rw [Store.listeners_compose] at hlistener
    rcases List.mem_append.1 hlistener with hlistener | hlistener
    · exact h name listener hlistener
    · rw [List.eq_of_mem_replicate hlistener]
      rfl

theorem now_step (h : s.store.Passive) {step : Step} (hstep : step.isPassive = true) :
    (s.step step).1.store.now = s.store.now + step.nanoseconds := by
  have hpassed := passed_step h hstep
  generalize (s.step step).1.store = t at hpassed
  cases hpassed with
  | advanced hadvance =>
    rw [Store.now_advance, hadvance]
    rfl
  | ran htime _ _ => rw [Store.now_run, htime, Nat.add_zero]
  | composed htime _ _ => rw [Store.now_compose, htime, Nat.add_zero]
  | same htime => rw [htime, Nat.add_zero]
  | added htime | attached htime | unsubscribed htime | cleared htime =>
    rw [htime, Nat.add_zero]
    rfl

/-- What fires in a step fires with one reason. -/
theorem reason?_step_of_has (h : s.Calm) {step : Step} (hstep : step.isPassive = true)
    {name : Name Nat} (hname : s.store.has name = true) :
    (s.step step).1.store.reason? name = s.store.reason? name ∨
      (s.step step).1.store.reason? name = some step.reason := by
  have hpassed := passed_step h.passive hstep
  generalize (s.step step).1.store = t at hpassed
  cases hpassed with
  | same _ => exact .inl rfl
  | ran _ hgentle _ => exact hgentle.run.reason? name
  | advanced hadvance =>
    rw [hadvance]
    exact (h.passive.advance _).reason? name
  | added _ => exact .inl (Store.reason?_addController ..)
  | attached _ _ _ _ => exact .inl (Store.reason?_attach ..)
  | unsubscribed _ _ _ => exact .inl (Store.reason?_unsubscribe ..)
  | cleared _ _ => exact .inl (Store.reason?_clear ..)
  | composed _ sources timeout =>
    obtain ⟨deeds, hbooked⟩ := h.booked
    have hne : name ≠ .merged s.merged.length := by
      rintro rfl
      exact Bool.noConfusion ((hbooked.newKeys _ (Nat.le_refl _)).1.symm.trans hname)
    exact .inl (Store.reason?_compose_of_ne _ _ _ _ hne)

theorem Calm.step (h : s.Calm) {step : Step} (hstep : step.isPassive = true) :
    (s.step step).1.Calm := by
  obtain ⟨deeds, hbooked⟩ := h.booked
  exact ⟨passive_step h.passive hstep, _, hbooked.step step⟩

theorem Calm.runSteps (h : s.Calm) {steps : List Step}
    (hsteps : ∀ step ∈ steps, step.isPassive = true) : (s.runSteps steps).Calm := by
  induction steps generalizing s with
  | nil => exact h
  | cons step steps ih =>
    obtain ⟨hstep, hmore⟩ := List.forall_mem_cons.1 hsteps
    exact ih (h.step hstep) hmore

/-- At the beginning there are no listeners. -/
theorem Calm.empty : ({} : Scenario).Calm :=
  ⟨fun _ _ hlistener => absurd hlistener List.not_mem_nil, [], .empty⟩

theorem now_runSteps (h : s.Calm) {steps : List Step}
    (hsteps : ∀ step ∈ steps, step.isPassive = true) :
    (s.runSteps steps).store.now = s.store.now + elapsed steps := by
  induction steps generalizing s with
  | nil => rfl
  | cons step steps ih =>
    obtain ⟨hstep, hmore⟩ := List.forall_mem_cons.1 hsteps
    have hnow := ih (h.step hstep) hmore
    rw [now_step h.passive hstep, Nat.add_assoc] at hnow
    exact hnow

/-! ## Merged signals that wait -/

/-- A merged signal listens, and the time of its timer has not come. -/
structure Attentive (key : Nat) (followed : List (Name Nat)) (limit : Option Nat) (s : Scenario) :
    Prop where
  listens : s.store.Listens key followed limit []
  early : ∀ time, limit = some time → s.store.now < time

/-- A merged signal was made before. -/
theorem Attentive.lt (h : Attentive key followed limit s) (hcalm : s.Calm) :
    key < s.merged.length := by
  obtain ⟨deeds, hbooked⟩ := hcalm.booked
  by_contra hlt
  have hnew := (hbooked.newKeys key (Nat.le_of_not_lt hlt)).1
  exact Bool.noConfusion (hnew.symm.trans (Store.has_of_waits h.listens.waits))

/-- Unless it is cleared in a step, a merged signal waits on, or there is a cause and it fires. -/
theorem Attentive.step (h : Attentive key followed limit s) (hcalm : s.Calm) {step : Step}
    (hstep : step.isPassive = true) (hclears : step.clears key = false) :
    Attentive key followed limit (s.step step).1 ∨
      Store.Reached key followed limit (s.step step).1.store.now [] (s.step step).1.store := by
  have hnow := now_step hcalm.passive hstep
  have hkey := h.lt hcalm
  obtain ⟨deeds, hbooked⟩ := hcalm.booked
  have hnew := (hbooked.newKeys _ (Nat.le_refl _)).1
  have hpassed := passed_step hcalm.passive hstep
  suffices hstore : (s.step step).1.store.Listens key followed limit [] ∧
      (∀ time, limit = some time → (s.step step).1.store.now < time) ∨
        Store.Reached key followed limit (s.step step).1.store.now [] (s.step step).1.store from
    hstore.imp_left fun hlistens => ⟨hlistens.1, hlistens.2⟩
  generalize (s.step step).1.store = t at hnow hpassed ⊢
  -- If the clock stands still, the time does not come.
  have hstill : step.nanoseconds = 0 → ∀ time, limit = some time → t.now < time := by
    intro htime time hlimit
    rw [hnow, htime, Nat.add_zero]
    exact h.early time hlimit
  cases hpassed with
  | same htime => exact .inl ⟨h.listens, hstill htime⟩
  | advanced hadvance => exact h.listens.advance hcalm.passive _
  | @ran tasks htime hgentle hquiet =>
    have hstart := h.listens.append (hquiet key)
    rw [List.append_nil] at hstart
    have hattends : Store.Attends step.reason key followed limit (s.store.run tasks).1.now tasks
        s.store := ⟨hgentle, .inl hstart⟩
    exact hattends.run.attends.imp_left fun hlistens => ⟨hlistens, hstill htime⟩
  | added htime => exact .inl ⟨h.listens.addController _, hstill htime⟩
  | attached htime _ _ _ => exact .inl ⟨h.listens.attach .., hstill htime⟩
  | unsubscribed htime _ _ => exact .inl ⟨h.listens.unsubscribe .., hstill htime⟩
  | @cleared _ other hother =>
    refine .inl ⟨h.listens.clear ?_, hstill ‹_›⟩
    rintro rfl
    exact Bool.noConfusion (hclears.symm.trans hother)
  | composed htime sources timeout =>
    exact .inl ⟨h.listens.compose (Nat.ne_of_lt hkey) hnew sources timeout, hstill htime⟩

theorem store_of_clears {step : Step} (hclears : step.clears key = true) :
    (s.step step).1.store = s.store.clear key := by
  cases step with
  | clear k | drop k =>
    obtain rfl : k = key := of_decide_eq_true hclears
    rfl
  | _ => cases hclears

/-- A merged signal that is cleared while it waits is not reached any more. -/
theorem Attentive.deaf (h : Attentive key followed limit s) {step : Step}
    (hclears : step.clears key = true) : (s.step step).1.store.Deaf key := by
  rw [store_of_clears hclears]
  exact Store.deaf_clear (Store.reason?_of_waits h.listens.waits)

/-- While a merged signal waits, none has fired that it follows, and the time has not come. -/
theorem Attentive.not_cause (h : Attentive key followed limit s) :
    ¬ Store.Cause followed limit s.store.now s.store := by
  rintro (⟨source, hsource, hfired⟩ | ⟨time, hlimit, hle⟩)
  · rw [Store.reason?_of_waits (h.listens.sources source hsource)] at hfired
    cases hfired
  · exact Nat.lt_irrefl _ (Nat.lt_of_lt_of_le (h.early time hlimit) hle)

/-- As long as a merged signal has not fired, it waits if it was not cleared, and otherwise is not
reached any more. -/
theorem Attentive.runSteps (h : Attentive key followed limit s) (hcalm : s.Calm)
    {steps : List Step} (hsteps : ∀ step ∈ steps, step.isPassive = true)
    (hunfired : (s.runSteps steps).store.reason? (.merged key) = none) :
    (∀ step ∈ steps, step.clears key = false) ∧ Attentive key followed limit (s.runSteps steps) ∨
      (∃ step ∈ steps, step.clears key = true) ∧ (s.runSteps steps).store.Deaf key := by
  induction steps generalizing s with
  | nil => exact .inl ⟨List.forall_mem_nil _, h⟩
  | cons step steps ih =>
    obtain ⟨hstep, hmore⟩ := List.forall_mem_cons.1 hsteps
    cases hclears : step.clears key with
    | true =>
      refine .inr ⟨⟨step, List.mem_cons_self, hclears⟩, deaf_runSteps (h.deaf hclears) ?_ steps⟩
      exact Nat.lt_of_lt_of_le (h.lt hcalm) (s.length_merged_step step)
    | false =>
      rcases h.step hcalm hstep hclears with hnext | hreached
      · refine (ih hnext (hcalm.step hstep) hmore hunfired).imp ?_ ?_
        · exact fun ⟨hrest, hlast⟩ => ⟨List.forall_mem_cons.2 ⟨hclears, hrest⟩, hlast⟩
        · exact fun ⟨⟨other, hother, hcleared⟩, hdeaf⟩ =>
            ⟨⟨other, List.mem_cons_of_mem _ hother, hcleared⟩, hdeaf⟩
      · -- It has fired, and that is not taken back.
        obtain ⟨reason, hreason⟩ := Option.isSome_iff_exists.1 hreached.fired
        have hlater := reason?_runSteps hreason steps
        rw [show ((s.step step).1.runSteps steps).store.reason? (.merged key) = none from hunfired]
          at hlater
        cases hlater

/-- A step in which a merged signal that waits is not reached: neither it fires nor any signal that
it follows, and the time does not come. -/
theorem reason?_iff_of_not_cause {t : Store Nat} (hunfired : t.reason? (.merged key) = none)
    (hcause : ¬ Store.Cause followed limit t.now t) (reason : AbortReason) :
    t.reason? (.merged key) = some reason ↔
      (∃ source ∈ followed, t.reason? source = some reason) ∨
        reason = .timedOut ∧ ∃ time, limit = some time ∧ time ≤ t.now := by
  refine iff_of_false (by simp [hunfired]) ?_
  rintro (⟨source, hsource, hreason⟩ | ⟨-, htime⟩)
  · exact hcause (.inl ⟨source, hsource, by rw [hreason]; rfl⟩)
  · exact hcause (.inr htime)

/-- A merged signal that waits fires in the step in which a signal fires that it follows, with the
same reason, or the time of its timer comes, and in no other. -/
theorem Attentive.reason?_step (h : Attentive key followed limit s) (hcalm : s.Calm) {step : Step}
    (hstep : step.isPassive = true) (reason : AbortReason) :
    (s.step step).1.store.reason? (.merged key) = some reason ↔
      (∃ source ∈ followed, (s.step step).1.store.reason? source = some reason) ∨
        reason = .timedOut ∧ ∃ time, limit = some time ∧ time ≤ (s.step step).1.store.now := by
  have hunfired := Store.reason?_of_waits h.listens.waits
  cases hclears : step.clears key with
  | true =>
    rw [store_of_clears hclears]
    refine reason?_iff_of_not_cause ((Store.reason?_clear ..).trans hunfired) ?_ reason
    rintro (⟨source, hsource, hfired⟩ | htime)
    · rw [Store.reason?_clear] at hfired
      exact h.not_cause (.inl ⟨source, hsource, hfired⟩)
    · exact h.not_cause (.inr htime)
  | false =>
    rcases h.step hcalm hstep hclears with hnext | hreached
    · exact reason?_iff_of_not_cause (Store.reason?_of_waits hnext.listens.waits) hnext.not_cause
        reason
    · -- All that fires in the step fires with its reason.
      have hagrees : ∀ name r, s.store.waits name = true →
          (s.step step).1.store.reason? name = some r → r = step.reason := by
        intro name r hwaits hr
        rcases reason?_step_of_has hcalm hstep (Store.has_of_waits hwaits) with hsame | hfired
        · rw [hsame, Store.reason?_of_waits hwaits] at hr
          cases hr
        · exact Option.some.inj (hr.symm.trans hfired)
      have htimer : ∀ time, limit = some time → time ≤ (s.step step).1.store.now →
          step.reason = .timedOut := by
        intro time hlimit hle
        have hearly := h.early time hlimit
        rw [now_step hcalm.passive hstep] at hle
        cases step with
        | advance d => rfl
        | _ => exact absurd (Nat.lt_of_lt_of_le hearly hle) (Nat.lt_irrefl _)
      obtain ⟨r, hr⟩ := Option.isSome_iff_exists.1 hreached.fired
      have hreason := hagrees _ r h.listens.waits hr
      rw [hr, Option.some.injEq, hreason]
      constructor
      · rintro rfl
        rcases hreached.cause with ⟨source, hsource, hfired⟩ | ⟨time, hlimit, hle⟩
        · obtain ⟨r', hr'⟩ := Option.isSome_iff_exists.1 hfired
          rw [hagrees source r' (h.listens.sources source hsource) hr'] at hr'
          exact .inl ⟨source, hsource, hr'⟩
        · exact .inr ⟨htimer time hlimit hle, time, hlimit, hle⟩
      · rintro (⟨source, hsource, hfired⟩ | ⟨rfl, time, hlimit, hle⟩)
        · exact (hagrees source reason (h.listens.sources source hsource) hfired).symm
        · exact htimer time hlimit hle

/-! ## New merged signals -/

/-- Merging that is answered makes a signal. -/
theorem step_compose_of_done {sources : List (Name Nat)} {timeout : Option Duration}
    {hasClock : Bool} (h : (s.step (.compose sources timeout hasClock)).2.1 = .done) :
    (s.step (.compose sources timeout hasClock)).1 =
      { s with
        store := s.store.compose s.merged.length sources timeout
        merged := s.merged ++ [.held] } := by
  rw [step_compose] at h ⊢
  split at h
  · cases h
  · next hclock => rw [if_neg hclock]

theorem store_compose {sources : List (Name Nat)} {timeout : Option Duration} {hasClock : Bool}
    (h : (s.step (.compose sources timeout hasClock)).2.1 = .done) :
    (s.step (.compose sources timeout hasClock)).1.store =
      s.store.compose s.merged.length sources timeout := by
  rw [step_compose_of_done h]

/-- The time of a timer that is started comes later. -/
theorem deadline?_eq_some_iff {s : Store Nat} {timeout : Option Duration} {time : Nat} :
    s.deadline? timeout = some time ↔
      ∃ d, timeout = some d ∧ d.isZero = false ∧ time = s.now + d.nanoseconds := by
  rw [Store.deadline?, Option.map_eq_some_iff]
  constructor
  · rintro ⟨d, hd, rfl⟩
    obtain ⟨hsome, hzero⟩ := Option.filter_eq_some_iff.1 hd
    exact ⟨d, hsome, by simpa using hzero, rfl⟩
  · rintro ⟨d, hsome, hzero, rfl⟩
    exact ⟨d, Option.filter_eq_some_iff.2 ⟨hsome, by rw [hzero]; rfl⟩, rfl⟩

/-- A new merged signal waits, unless a signal has fired that it follows. -/
theorem attentive_compose (hcalm : s.Calm) {sources : List (Name Nat)} {timeout : Option Duration}
    {hasClock : Bool} (hdone : (s.step (.compose sources timeout hasClock)).2.1 = .done)
    (hunfired : sources.findSome? s.store.reason? = none) :
    Attentive s.merged.length (sources.filter s.store.has) (s.store.deadline? timeout)
      (s.step (.compose sources timeout hasClock)).1 := by
  obtain ⟨deeds, hbooked⟩ := hcalm.booked
  obtain ⟨hnew, hmerge⟩ := hbooked.newKeys _ (Nat.le_refl _)
  have hrelay : ∀ name, .relay s.merged.length ∉ s.store.listeners name :=
    fun name hmem => Nat.lt_irrefl _ (hbooked.lt_of_relay hmem)
  constructor
  · rw [store_compose hdone]
    exact Store.listens_compose hnew hmerge hrelay hunfired timeout
  · intro time hlimit
    obtain ⟨d, -, hzero, rfl⟩ := deadline?_eq_some_iff.1 hlimit
    rw [store_compose hdone, Store.now_compose]
    exact Nat.lt_add_of_pos_right (Nat.pos_of_ne_zero (by simpa [Duration.isZero] using hzero))

/-- A new merged signal has fired if one of its sources has, with the reason of the first. -/
theorem reason?_composed (hcalm : s.Calm) {sources : List (Name Nat)} {timeout : Option Duration}
    {hasClock : Bool} (hdone : (s.step (.compose sources timeout hasClock)).2.1 = .done) :
    (s.step (.compose sources timeout hasClock)).1.store.reason? (.merged s.merged.length) =
      sources.findSome? s.store.reason? := by
  obtain ⟨deeds, hbooked⟩ := hcalm.booked
  have hnew := (hbooked.newKeys _ (Nat.le_refl _)).1
  rw [store_compose hdone, Store.reason?_compose (Store.state?_eq_none_of_not_has hnew)]

/-- A merged signal that has not fired some steps later waits still, or it was cleared. -/
theorem attentive_of_unfired (hcalm : s.Calm) {sources : List (Name Nat)}
    {timeout : Option Duration} {hasClock : Bool}
    (hdone : (s.step (.compose sources timeout hasClock)).2.1 = .done) {after : List Step}
    (hafter : ∀ step ∈ after, step.isPassive = true)
    (hunfired : ((s.step (.compose sources timeout hasClock)).1.runSteps after).store.reason?
      (.merged s.merged.length) = none) :
    (∀ step ∈ after, step.clears s.merged.length = false) ∧
        Attentive s.merged.length (sources.filter s.store.has) (s.store.deadline? timeout)
          ((s.step (.compose sources timeout hasClock)).1.runSteps after) ∨
      (∃ step ∈ after, step.clears s.merged.length = true) ∧
        ((s.step (.compose sources timeout hasClock)).1.runSteps after).store.Deaf
          s.merged.length := by
  have hnone : sources.findSome? s.store.reason? = none := by
    cases hfired : sources.findSome? s.store.reason? with
    | none => rfl
    | some reason =>
      rw [reason?_runSteps ((reason?_composed hcalm hdone).trans hfired) after] at hunfired
      cases hunfired
  exact (attentive_compose hcalm hdone hnone).runSteps (hcalm.step rfl) hafter hunfired

/-! ## Merged signals that follow merged signals -/

/-- In these steps a merged signal was made that follows the source, and it was not cleared. -/
def Feeds (steps : List Step) (source target : Name Nat) : Prop :=
  ∃ before sources timeout hasClock after,
    steps = before ++ .compose sources timeout hasClock :: after ∧
      let s := ({} : Scenario).runSteps before
      target = .merged s.merged.length ∧ source ∈ sources.filter s.store.has ∧
        (s.step (.compose sources timeout hasClock)).2.1 = .done ∧
          ∀ step ∈ after, step.clears s.merged.length = false

/-- A merged signal that has not fired waits for its sources. -/
theorem Feeds.attentive {steps : List Step} (hpassive : ∀ step ∈ steps, step.isPassive = true)
    {source target : Name Nat} (h : Feeds steps source target)
    (hunfired : (({} : Scenario).runSteps steps).store.reason? target = none) :
    ∃ key followed limit, target = .merged key ∧ source ∈ followed ∧
      Attentive key followed limit (({} : Scenario).runSteps steps) := by
  obtain ⟨before, sources, timeout, hasClock, after, rfl, rfl, hsource, hdone, hclears⟩ := h
  obtain ⟨hbefore, hrest⟩ := List.forall_mem_append.1 hpassive
  rw [runSteps_append] at hunfired ⊢
  rcases attentive_of_unfired (Calm.empty.runSteps hbefore) hdone
    (List.forall_mem_cons.1 hrest).2 hunfired with ⟨-, hwaits⟩ | ⟨⟨step, hstep, hcleared⟩, -⟩
  · exact ⟨_, _, _, rfl, hsource, hwaits⟩
  · exact Bool.noConfusion ((hclears step hstep).symm.trans hcleared)

/-- A signal that fires takes along, in the same step and with its reason, what follows it through
any number of merged signals. -/
theorem reason?_of_feeds {steps : List Step} (hpassive : ∀ step ∈ steps, step.isPassive = true)
    {step : Step} (hstep : step.isPassive = true) {origin target : Name Nat}
    (h : Relation.ReflTransGen (Feeds steps) origin target) {reason : AbortReason}
    (hunfired : (({} : Scenario).runSteps steps).store.reason? target = none)
    (horigin : ((({} : Scenario).runSteps steps).step step).1.store.reason? origin = some reason) :
    ((({} : Scenario).runSteps steps).step step).1.store.reason? target = some reason := by
  induction h with
  | refl => exact horigin
  | tail _ hfeeds ih =>
    obtain ⟨key, followed, limit, rfl, hsource, hwaits⟩ := hfeeds.attentive hpassive hunfired
    -- The signal in between had not fired either, since the last one waits for it.
    have hbetween := ih (Store.reason?_of_waits (hwaits.listens.sources _ hsource))
    exact (hwaits.reason?_step (Calm.empty.runSteps hpassive) hstep reason).2
      (.inl ⟨_, hsource, hbetween⟩)

/-! ## The law of merged signals -/

/-- A merged signal waits some steps after it was made of other signals and a timeout, and fires in
the next step exactly as the first of them does. -/
structure FiresFirst (name : Name Nat) (followed : List (Name Nat)) (timeout : Option Duration)
    (after : List Step) (step : Step) (s : Scenario) : Prop where
  /-- None of the signals has fired. -/
  sources : ∀ source ∈ followed, s.store.reason? source = none
  /-- The timeout has not elapsed; a timeout of zero never does. -/
  early : ∀ d, timeout = some d → d.isZero = false → elapsed after < d.nanoseconds
  /-- The signal fires if one of them does, with the same reason, or the timeout elapses. -/
  fires : ∀ reason, (s.step step).1.store.reason? name = some reason ↔
    (∃ source ∈ followed, (s.step step).1.store.reason? source = some reason) ∨
      reason = .timedOut ∧ ∃ d, timeout = some d ∧ d.isZero = false ∧
        d.nanoseconds ≤ elapsed (after ++ [step])

/-- While a merged signal waits, its timer goes by the time since it was made. -/
theorem Attentive.firesFirst {followed : List (Name Nat)} {timeout : Option Duration}
    {after : List Step} {u : Scenario}
    (h : Attentive key followed (s.store.deadline? timeout) u) (hcalm : u.Calm)
    (hnow : u.store.now = s.store.now + elapsed after) {step : Step}
    (hstep : step.isPassive = true) :
    FiresFirst (.merged key) followed timeout after step u where
  sources source hsource := Store.reason?_of_waits (h.listens.sources source hsource)
  early d hd hzero := by
    have hearly := h.early _ (deadline?_eq_some_iff.2 ⟨d, hd, hzero, rfl⟩)
    rw [hnow] at hearly
    exact Nat.lt_of_add_lt_add_left hearly
  fires reason := by
    have hlater : (u.step step).1.store.now = s.store.now + elapsed (after ++ [step]) := by
      rw [now_step hcalm.passive hstep, hnow, Nat.add_assoc, elapsed, elapsed, List.map_append,
        List.sum_append]
      rfl
    rw [h.reason?_step hcalm hstep, hlater]
    refine or_congr_right (and_congr_right fun _ => ?_)
    constructor
    · rintro ⟨time, hlimit, hle⟩
      obtain ⟨d, hd, hzero, rfl⟩ := deadline?_eq_some_iff.1 hlimit
      exact ⟨d, hd, hzero, Nat.le_of_add_le_add_left hle⟩
    · rintro ⟨d, hd, hzero, hle⟩
      exact ⟨_, deadline?_eq_some_iff.2 ⟨d, hd, hzero, rfl⟩, Nat.add_le_add_left hle _⟩

/-- What becomes of a merged signal while listeners are passive. If a signal has fired that it
follows, it has the reason of the first of these at once, and nothing is attached. Otherwise it
waits until it fires or is cleared, and fires as its first source does, also where that is a merged
signal that fires for another, and so on. It fires once, and never after it was cleared. -/
theorem first_source {before after : List Step} {step : Step} {offered : List (Option (Name Nat))}
    {timeout : Option Duration} {hasClock : Bool}
    (hpassive : ∀ other ∈ before ++ .compose offered.reduceOption timeout hasClock :: after,
      other.isPassive = true)
    (hstep : step.isPassive = true)
    (hdone : ((({} : Scenario).runSteps before).step
      (.compose offered.reduceOption timeout hasClock)).2.1 = .done) :
    let s := ({} : Scenario).runSteps before
    let name : Name Nat := .merged s.merged.length
    let t := (s.step (.compose offered.reduceOption timeout hasClock)).1
    let u := t.runSteps after
    let v := (u.step step).1
    t.store.reason? name = offered.reduceOption.findSome? s.store.reason? ∧
      ((t.store.reason? name).isSome = true →
        ∀ other, t.store.listeners other = s.store.listeners other) ∧
      (∀ reason, u.store.reason? name = some reason → v.store.reason? name = some reason) ∧
      (u.store.reason? name = none → (∃ other ∈ after, other.clears s.merged.length = true) →
        v.store.reason? name = none) ∧
      (u.store.reason? name = none → (∀ other ∈ after, other.clears s.merged.length = false) →
        FiresFirst name (offered.reduceOption.filter s.store.has) timeout after step u) ∧
      ∀ origin reason,
        Relation.ReflTransGen
          (Feeds (before ++ .compose offered.reduceOption timeout hasClock :: after)) origin name →
        u.store.reason? name = none → v.store.reason? origin = some reason →
          v.store.reason? name = some reason := by
  intro s name t u v
  obtain ⟨hbefore, hrest⟩ := List.forall_mem_append.1 hpassive
  have hafter := (List.forall_mem_cons.1 hrest).2
  have hcalm : s.Calm := Calm.empty.runSteps hbefore
  have hnext : t.Calm := hcalm.step rfl
  have hkey : s.merged.length < u.merged.length := by
    refine Nat.lt_of_lt_of_le ?_ (t.length_merged_runSteps after)
    rw [show t = _ from step_compose_of_done hdone, List.length_append]
    exact Nat.lt_succ_self _
  have hreason : t.store.reason? name = offered.reduceOption.findSome? s.store.reason? :=
    reason?_composed hcalm hdone
  refine ⟨hreason, fun hfired other => ?_, fun reason hu => Scenario.reason?_step hu step,
    fun hunfired hclears => ?_, fun hunfired hclears => ?_, fun origin reason hfeeds hunfired => ?_⟩
  · rw [store_compose hdone, Store.listeners_compose, ← hreason, if_pos hfired]
    exact List.append_nil _
  · rcases attentive_of_unfired hcalm hdone hafter hunfired with ⟨hnone, -⟩ | ⟨-, hdeaf⟩
    · obtain ⟨other, hother, hcleared⟩ := hclears
      exact Bool.noConfusion ((hnone other hother).symm.trans hcleared)
    · exact (deaf_step hdeaf hkey step).unfired
  · rcases attentive_of_unfired hcalm hdone hafter hunfired with
      ⟨-, hwaits⟩ | ⟨⟨other, hother, hcleared⟩, -⟩
    · refine hwaits.firesFirst (hnext.runSteps hafter) ?_ hstep
      rw [now_runSteps hnext hafter, store_compose hdone, Store.now_compose]
    · exact Bool.noConfusion ((hclears other hother).symm.trans hcleared)
  · have hrun : ({} : Scenario).runSteps
        (before ++ .compose offered.reduceOption timeout hasClock :: after) = u :=
      runSteps_append ..
    have hpropagates := @reason?_of_feeds _ hpassive _ hstep _ _ hfeeds reason
    rw [hrun] at hpropagates
    exact hpropagates hunfired

/-- A controller is aborted, and a merged signal fires that follows it through another one. -/
theorem fires_through_another :
    let before : List Step := [.newController, .newController, .compose [.controller 0] none true]
    let offered : List (Option (Name Nat)) := [some (.merged 0), none, some (.controller 1)]
    let steps := before ++ [.compose offered.reduceOption none true]
    (∀ other ∈ steps, other.isPassive = true) ∧
      ((({} : Scenario).runSteps before).step (.compose offered.reduceOption none true)).2.1 =
        .done ∧
      (({} : Scenario).runSteps (steps ++ [.abort 0])).store.reason? (.merged 1) =
        some .aborted := by
  intro before offered steps
  have hpassive : ∀ other ∈ steps, other.isPassive = true := by decide
  have hdone : ((({} : Scenario).runSteps before).step
    (.compose offered.reduceOption none true)).2.1 = .done := rfl
  have hlaw := @first_source before [] (.abort 0) offered none true hpassive rfl hdone
  have hfirst : Feeds steps (.controller 0) (.merged 0) :=
    ⟨[.newController, .newController], [.controller 0], none, true,
      [.compose offered.reduceOption none true], rfl, rfl, by decide, rfl, by decide⟩
  have hsecond : Feeds steps (.merged 0) (.merged 1) :=
    ⟨before, offered.reduceOption, none, true, [], rfl, rfl, by decide, rfl, by decide⟩
  have horigin : (({} : Scenario).runSteps (steps ++ [.abort 0])).store.reason? (.controller 0) =
      some .aborted := by
    show ((({} : Scenario).runSteps steps).store.run [.fire (.controller 0) .aborted]).1.reason?
      (.controller 0) = some .aborted
    rw [Store.run_fire, if_pos (by decide)]
    exact (Store.lasting_reason? _ _).run (by decide)
  exact ⟨hpassive, hdone, hlaw.2.2.2.2.2 _ _ (.tail (.single hfirst) hsecond) rfl horigin⟩

end Scenario

end DaemonRpc.Signal

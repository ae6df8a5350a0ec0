import DaemonRpc.Proofs.Signal.Steps

/-!
# Taking listeners away

A label stands for the listener that was subscribed under it, by the signal and the number that the
listener got. Two labels never stand for the same listener (`Scenario.Tagged`), so whatever else
happens, a listener stays attached until its signal fires or its own label is unsubscribed
(`Scenario.Retains`), which succeeds once if the signal has not fired (`Scenario.Retains.answers`).
-/

namespace DaemonRpc.Signal

/-- The label whose listener a step subscribes or unsubscribes. -/
def Step.listener? : Step → Option String
  | .subscribe _ label _ | .unsubscribe label => some label
  | _ => none

namespace Store

variable {κ : Type} [DecidableEq κ] {s : Store κ} {name : Name κ} {number : Nat}

/-- A signal gives out more and more numbers. -/
theorem Touched.issued_le {t : Store κ} (h : Touched s t) (name : Name κ) :
    s.issued name ≤ t.issued name := by
  cases h with
  | same => exact Nat.le_refl _
  | fired _ reason => exact Nat.le_of_eq (issued_markFired ..).symm
  | attached _ label =>
    rw [issued_attach]
    exact Nat.le_add_right _ _
  | detached key => exact Nat.le_of_eq (issued_detach ..).symm
  | cleared key => exact Nat.le_of_eq (issued_clear ..).symm

theorem lasting_issued (name : Name κ) (number : Nat) :
    Lasting fun _ (s : Store κ) => number < s.issued name where
  work task _ s h := Nat.lt_of_lt_of_le h ((s.touched_work task).issued_le name)
  expire _ _ _ h := h
  clock _ _ h := h

/-- The listener with the number is attached as long as the signal has not fired. -/
def Keeps (name : Name κ) (number : Nat) (s : Store κ) : Prop :=
  s.reason? name = none → number ∈ s.calls name

theorem Keeps.attach (h : s.Keeps name number) (other : Name κ) (label : String)
    (effects : List (Effect κ)) : (s.attach other label effects).Keeps name number := by
  intro hname
  rw [reason?_attach] at hname
  rw [calls_attach]
  exact List.mem_append_left _ (h hname)

theorem Keeps.markFired (h : s.Keeps name number) {other : Name κ} (hother : s.waits other = true)
    (reason : AbortReason) : (s.markFired other reason).Keeps name number := by
  intro hname
  rw [reason?_markFired (has_of_waits hother)] at hname
  rw [calls_markFired]
  by_cases ho : name = other
  · simp [ho] at hname
  · rw [if_neg ho] at hname ⊢
    exact h hname

theorem Keeps.unsubscribe (h : s.Keeps name number) {other : Name κ} {id : Nat}
    (hne : (other, id) ≠ (name, number)) : (s.unsubscribe other id).1.Keeps name number := by
  intro hname
  rw [reason?_unsubscribe] at hname
  rw [calls_unsubscribe]
  split
  · next ho =>
    subst ho
    have hid : number ≠ id := fun hid => hne (by rw [hid])
    exact List.mem_filter.2 ⟨h hname, decide_eq_true hid⟩
  · exact h hname

theorem Keeps.compose (h : s.Keeps name number) (key : κ) (sources : List (Name κ))
    (timeout : Option Duration) : (s.compose key sources timeout).Keeps name number := by
  intro hname
  rw [calls_compose]
  -- A signal that has fired stays so, hence this one had not fired before.
  refine h (Option.eq_none_iff_forall_ne_some.2 fun reason hreason => ?_)
  rw [reason?_compose_of_fired hreason] at hname
  cases hname

theorem lasting_keeps (name : Name κ) (number : Nat) :
    Lasting fun _ (s : Store κ) => s.Keeps name number where
  work task _ s h := by
    have htouched := s.touched_work task
    generalize (s.work task).store = t at htouched
    cases htouched with
    | same => exact h
    | fired hwaits reason => exact h.markFired hwaits reason
    | attached _ label => exact h.attach _ label []
    | detached key =>
      rw [Keeps, reason?_detach, calls_detach]
      exact h
    | cleared key =>
      rw [Keeps, reason?_clear, calls_clear]
      exact h
  expire _ _ _ h := h
  clock _ _ h := h

end Store

namespace Scenario

variable {s : Scenario} {label : String} {name : Name Nat} {number : Nat}

/-! ## Labels -/

theorem lookup_putLabel {α : Type} (label other : String) (a : α) (l : List (String × α)) :
    (putLabel label a l).lookup other = if other = label then some a else l.lookup other := by
  rw [putLabel, List.lookup_cons]
  by_cases h : other = label
  · rw [if_pos h, h, beq_self_eq_true]
  · -- The entries that go away stand under the label, so another one does not miss them.
    rw [if_neg h, beq_false_of_ne h]
    induction l with
    | nil => rfl
    | cons entry l ih =>
      obtain ⟨k, b⟩ := entry
      by_cases hk : k = label
      · rw [List.filter_cons_of_neg (by simp [hk]), List.lookup_cons, hk, beq_false_of_ne h]
        exact ih
      · rw [List.filter_cons_of_pos (by simp [hk]), List.lookup_cons, List.lookup_cons]
        cases other == k
        · exact ih
        · rfl

/-- The signal and the number of the listener for which a label stands. -/
def tag? (s : Scenario) (label : String) : Option (Name Nat × Nat) :=
  (s.subscriptions.lookup label).join

/-- A label that is subscribed stands for the next listener of a signal that has not fired. -/
theorem tag?_subscribe (s : Scenario) (signal : Name Nat) (label : String)
    (effects : List (Effect Nat)) (other : String) :
    (s.step (.subscribe signal label effects)).1.tag? other =
      if other = label then
        if s.store.waits signal then some (signal, s.store.issued signal) else none
      else s.tag? other := by
  have hsubscriptions : (s.step (.subscribe signal label effects)).1.subscriptions =
      putLabel label ((s.store.subscribe signal label effects).2.1.map fun n => (signal, n))
        s.subscriptions := rfl
  rw [tag?, hsubscriptions, lookup_putLabel]
  split
  · rw [Store.subscribe, Store.waits, Store.has, Store.issued]
    cases s.store.reason? signal with
    | some reason => simp
    | none => cases s.store.state? signal <;> simp
  · rfl

/-- Other steps leave the labels as they are. -/
theorem tag?_step (s : Scenario) {step : Step}
    (h : ∀ signal label effects, step ≠ .subscribe signal label effects) (label : String) :
    (s.step step).1.tag? label = s.tag? label := by
  have hkeep : ∀ {t : Scenario}, t.subscriptions = s.subscriptions → t.tag? label = s.tag? label :=
    fun ht => by rw [tag?, ht, tag?]
  cases step with
  | subscribe signal label effects => exact absurd rfl (h signal label effects)
  | unsubscribe label =>
    refine hkeep ?_
    rw [step]
    cases (s.subscriptions.lookup label).join <;> rfl
  | compose sources timeout hasClock =>
    refine hkeep ?_
    rw [step_compose]
    split <;> rfl
  | poll label =>
    obtain ⟨waits, hpoll⟩ := s.step_poll label
    refine hkeep ?_
    rw [hpoll]
  | newController | abort | clear | drop | advance | wait => exact hkeep rfl

/-! ## Listeners that stay -/

/-- A listener stays attached whatever is done, unless its own label is unsubscribed. -/
theorem keeps_step (h : s.store.Keeps name number) {step : Step}
    (hstep : ∀ label, step = .unsubscribe label → s.tag? label ≠ some (name, number)) :
    (s.step step).1.store.Keeps name number := by
  have hchanged := s.changed_step step
  generalize (s.step step).1.store = t at hchanged
  cases hchanged with
  | same => exact h
  | ran _ => exact (Store.lasting_keeps name number).run h
  | advanced time => exact (Store.lasting_keeps name number).advance h time
  | added =>
    rw [Store.Keeps, Store.reason?_addController, Store.calls_addController]
    exact h
  | attached _ _ => exact h.attach _ _ _
  | unsubscribed signal id hlabel htag =>
    -- The label that is unsubscribed stands for another listener.
    exact h.unsubscribe fun heq => hstep _ hlabel (htag.trans (congrArg some heq))
  | composed sources timeout => exact h.compose _ sources timeout

theorem issued_step (h : number < s.store.issued name) (step : Step) :
    number < (s.step step).1.store.issued name := by
  have hchanged := s.changed_step step
  generalize (s.step step).1.store = t at hchanged
  cases hchanged with
  | same => exact h
  | ran _ => exact (Store.lasting_issued name number).run h
  | advanced time => exact (Store.lasting_issued name number).advance h time
  | added => rwa [Store.issued_addController]
  | attached _ _ =>
    rw [Store.issued_attach]
    exact Nat.lt_of_lt_of_le h (Nat.le_add_right _ _)
  | unsubscribed signal id => rwa [Store.issued_unsubscribe]
  | composed sources timeout => rwa [Store.issued_compose]

/-- Each label stands for a listener that got its number, and for another one than every other
label. -/
structure Tagged (s : Scenario) : Prop where
  issued : ∀ label name number, s.tag? label = some (name, number) → number < s.store.issued name
  unique : ∀ label other name number, s.tag? label = some (name, number) →
    s.tag? other = some (name, number) → label = other

/-- The number of the next listener is not taken. -/
theorem Tagged.tag?_ne (h : Tagged s) (label : String) (signal : Name Nat) :
    s.tag? label ≠ some (signal, s.store.issued signal) :=
  fun hlabel => Nat.lt_irrefl _ (h.issued label signal _ hlabel)

/-- A listener is attached to a signal that has not fired. -/
theorem store_subscribe {signal : Name Nat} (h : s.store.waits signal = true) (label : String)
    (effects : List (Effect Nat)) :
    (s.step (.subscribe signal label effects)).1.store = s.store.attach signal label effects := by
  simp only [step, Store.subscribe, Store.reason?_of_waits h]

theorem Tagged.step (h : Tagged s) (step : Step) : Tagged (s.step step).1 := by
  by_cases hsubscribe : ∃ signal label effects, step = .subscribe signal label effects
  · obtain ⟨signal, label, effects, rfl⟩ := hsubscribe
    -- Only the label that is subscribed stands for another listener, if there is one.
    have hnew : ∀ name number,
        (s.step (.subscribe signal label effects)).1.tag? label = some (name, number) →
          s.store.waits signal = true ∧ name = signal ∧ number = s.store.issued signal := by
      intro name number htag
      rw [tag?_subscribe, if_pos rfl] at htag
      split at htag
      · next hwaits =>
        obtain ⟨rfl, rfl⟩ := Prod.mk.inj (Option.some.inj htag)
        exact ⟨hwaits, rfl, rfl⟩
      · cases htag
    have hold : ∀ other, other ≠ label →
        (s.step (.subscribe signal label effects)).1.tag? other = s.tag? other :=
      fun other hne => by rw [tag?_subscribe, if_neg hne]
    refine ⟨fun other name number htag => ?_, fun one other name number hone hother => ?_⟩
    · by_cases hlabel : other = label
      · subst hlabel
        obtain ⟨hwaits, rfl, rfl⟩ := hnew name number htag
        rw [store_subscribe hwaits, Store.issued_attach, if_pos ⟨rfl, Store.has_of_waits hwaits⟩]
        exact Nat.lt_succ_self _
      · rw [hold other hlabel] at htag
        exact issued_step (h.issued other name number htag) _
    · by_cases hl : one = label <;> by_cases hl' : other = label
      · rw [hl, hl']
      · subst hl
        obtain ⟨-, rfl, rfl⟩ := hnew name number hone
        rw [hold other hl'] at hother
        exact absurd hother (h.tag?_ne other _)
      · subst hl'
        obtain ⟨-, rfl, rfl⟩ := hnew name number hother
        rw [hold one hl] at hone
        exact absurd hone (h.tag?_ne one _)
      · rw [hold one hl] at hone
        rw [hold other hl'] at hother
        exact h.unique one other name number hone hother
  · have hold := s.tag?_step fun signal label effects hstep =>
      hsubscribe ⟨signal, label, effects, hstep⟩
    refine ⟨fun label name number htag => ?_, fun label other name number hlabel hother => ?_⟩
    · rw [hold] at htag
      exact issued_step (h.issued label name number htag) step
    · rw [hold] at hlabel hother
      exact h.unique label other name number hlabel hother

theorem Tagged.runSteps (h : Tagged s) (steps : List Step) : Tagged (s.runSteps steps) := by
  induction steps generalizing s with
  | nil => exact h
  | cons step steps ih => exact ih (h.step step)

/-- At the beginning there are no labels. -/
theorem tagged_empty : Tagged {} where
  issued _ _ _ h := by cases h
  unique _ _ _ _ h := by cases h

/-- The label stands for the listener, which is attached as long as its signal has not fired. -/
structure Retains (label : String) (name : Name Nat) (number : Nat) (s : Scenario) : Prop where
  tag : s.tag? label = some (name, number)
  keeps : s.store.Keeps name number

theorem Retains.step (h : s.Retains label name number) (htagged : Tagged s) {step : Step}
    (hstep : step.listener? ≠ some label) : (s.step step).1.Retains label name number where
  tag := by
    by_cases hsubscribe : ∃ signal other effects, step = .subscribe signal other effects
    · obtain ⟨signal, other, effects, rfl⟩ := hsubscribe
      have hne : label ≠ other := fun heq => hstep (congrArg some heq.symm)
      rw [tag?_subscribe, if_neg hne]
      exact h.tag
    · rw [s.tag?_step fun signal other effects heq => hsubscribe ⟨signal, other, effects, heq⟩]
      exact h.tag
  keeps := by
    refine keeps_step h.keeps fun other hunsubscribe htag => ?_
    subst hunsubscribe
    exact hstep (congrArg some (htagged.unique other label name number htag h.tag))

theorem Retains.runSteps (h : s.Retains label name number) (htagged : Tagged s)
    {steps : List Step} (hsteps : ∀ step ∈ steps, step.listener? ≠ some label) :
    (s.runSteps steps).Retains label name number := by
  induction steps generalizing s with
  | nil => exact h
  | cons step steps ih =>
    obtain ⟨hstep, hrest⟩ := List.forall_mem_cons.1 hsteps
    exact ih (h.step htagged hstep) (htagged.step step) hrest

/-- A label is unsubscribed by the listener for which it stands. -/
theorem step_unsubscribe (h : s.tag? label = some (name, number)) :
    s.step (.unsubscribe label) =
      ({ s with store := (s.store.unsubscribe name number).1 },
        .accepted (decide (number ∈ s.store.calls name)), []) := by
  rw [tag?] at h
  simp only [Scenario.step, h, Store.found_unsubscribe]

/-- A listener that is attached is taken away if its signal has not fired, and only once. -/
theorem Retains.answers (h : s.Retains label name number)
    (hsilent : (s.store.reason? name).isSome = true → s.store.calls name = []) :
    let removed := s.step (.unsubscribe label)
    removed.2.1 = .accepted (s.store.reason? name).isNone ∧
      (removed.1.step (.unsubscribe label)).2.1 = .accepted false := by
  intro removed
  have hremoved : removed = _ := step_unsubscribe h.tag
  have htag : removed.1.tag? label = some (name, number) := by
    rw [hremoved]
    exact h.tag
  refine ⟨?_, ?_⟩
  · rw [hremoved]
    cases hreason : s.store.reason? name with
    | none => simp [h.keeps hreason]
    | some reason => simp [hsilent (by rw [hreason]; rfl)]
  · -- The label still stands for the listener, which is not attached any more.
    rw [step_unsubscribe htag, hremoved, Store.calls_unsubscribe, if_pos rfl]
    simp

/-- A listener that is subscribed to a signal that has not fired is attached. -/
theorem retains_subscribe {signal : Name Nat} (h : s.store.waits signal = true) (label : String)
    (effects : List (Effect Nat)) :
    (s.step (.subscribe signal label effects)).1.Retains label signal
      (s.store.issued signal) where
  tag := by rw [tag?_subscribe, if_pos rfl, if_pos h]
  keeps _ := by
    rw [store_subscribe h, Store.calls_attach, if_pos ⟨rfl, Store.has_of_waits h⟩]
    exact List.mem_append_right _ (List.mem_singleton.2 rfl)

end Scenario

end DaemonRpc.Signal

import DaemonRpc.Proofs.Signal.Bookkeeping
import DaemonRpc.Proofs.Signal.Tales

/-!
# Delivery to listeners

The tale of every signal goes on from step to step (`Scenario.told_step`). Beside it, those who wait
for a signal are woken as it fires (`Store.Wakes`), and labels stand for the listeners that got a
number under them (`Scenario.Labelled`). `Scenario.delivery_runSteps` is what comes of this after
any steps.
-/

namespace DaemonRpc.Signal

/-! ## Waiting -/

namespace Store

variable {κ : Type} [DecidableEq κ] {s : Store κ}

/-- Every signal that has fired has woken those who wait for it, and no other has. -/
def Wakes (s : Store κ) : Prop :=
  ∀ name e, s.state? name = some e → e.woken = e.reason.isSome

/-- Those who wait get the reason with which the signal fired. -/
theorem Wakes.awaited? (h : s.Wakes) (name : Name κ) : s.awaited? name = s.reason? name := by
  rw [Store.awaited?, reason?]
  cases he : s.state? name with
  | none => rfl
  | some e =>
    have hwoken := h name e he
    cases hreason : e.reason <;> simp [hwoken, hreason]

theorem Wakes.change (h : s.Wakes) {f : Entry κ → Entry κ}
    (hf : ∀ e, e.woken = e.reason.isSome → (f e).woken = (f e).reason.isSome) (name : Name κ) :
    (s.change name f).Wakes := by
  intro other e he
  rw [state?_change] at he
  split at he
  · obtain ⟨e', he', rfl⟩ := Option.map_eq_some_iff.1 he
    exact hf e' (h other e' he')
  · exact h other e he

theorem Wakes.markFired (h : s.Wakes) (name : Name κ) (reason : AbortReason) :
    (s.markFired name reason).Wakes :=
  h.change (fun _ _ => rfl) name

theorem Wakes.attach (h : s.Wakes) (name : Name κ) (label : String) (effects : List (Effect κ)) :
    (s.attach name label effects).Wakes := by
  refine h.change ?_ name
  exact fun _ he => he

theorem Wakes.unsubscribe (h : s.Wakes) (name : Name κ) (id : Nat) :
    (s.unsubscribe name id).1.Wakes := by
  refine h.change ?_ name
  exact fun _ he => he

theorem Wakes.detach (h : s.Wakes) (key : κ) : (s.detach key).Wakes := by
  intro name e he
  rw [state?_detach] at he
  obtain ⟨e', he', rfl⟩ := Option.map_eq_some_iff.1 he
  exact h name e' he'

theorem Wakes.clear (h : s.Wakes) (key : κ) : (s.clear key).Wakes := h.detach key

theorem Wakes.addController (h : s.Wakes) (n : Nat) : (s.addController n).Wakes := by
  intro name e he
  rw [state?_addController] at he
  rcases Option.or_eq_some_iff.1 he with he | ⟨-, he⟩
  · exact h name e he
  · split at he
    · obtain rfl := Option.some.inj he
      rfl
    · cases he

theorem Wakes.compose (h : s.Wakes) (key : κ) (sources : List (Name κ))
    (timeout : Option Duration) : (s.compose key sources timeout).Wakes := by
  intro name e he
  rw [state?_compose] at he
  rcases Option.or_eq_some_iff.1 he with he | ⟨-, he⟩
  · obtain ⟨e', he', rfl⟩ := Option.map_eq_some_iff.1 he
    have hwoken := h name e' he'
    split <;> exact hwoken
  · split at he
    · obtain rfl := Option.some.inj he
      rfl
    · cases he

theorem lasting_wakes : Lasting fun _ (s : Store κ) => s.Wakes where
  work task _ s h := by
    have htouched := s.touched_work task
    generalize (s.work task).store = t at htouched
    cases htouched with
    | same => exact h
    | fired _ reason => exact h.markFired _ reason
    | attached _ label => exact h.attach _ label []
    | detached key => exact h.detach key
    | cleared key => exact h.clear key
  expire _ _ _ h := h
  clock _ _ h := h

end Store

/-! ## Scenarios -/

namespace Scenario

variable {s : Scenario} {name : Name Nat} {notes : List (Note Nat)}

/-- A step leads from stage to stage. -/
theorem told_step (h : Store.Told name [] notes s.store)
    (hnew : s.store.has (.merged s.merged.length) = false) (step : Step) :
    Store.Told name [] (notes ++ s.notesOf step) (s.step step).1.store := by
  cases step with
  | newController =>
    rw [notesOf, List.append_nil]
    exact h.quiet (Store.reason?_addController ..) (Store.tags_addController ..)
      (Store.issued_addController ..)
  | subscribe signal label effects =>
    rw [notesOf, Scenario.step, Store.subscribe]
    cases hreason : s.store.reason? signal with
    | some reason =>
      have heffects : ∀ e ∈ effects.map Errand.perform, e.isFor name = false :=
        List.forall_mem_map.2 fun _ _ => rfl
      have hrun := (Store.telling_told name).run ((h.late hreason label false).pushAll heffects)
      rw [List.append_assoc, List.append_nil, tasksOf_map_perform] at hrun
      show Store.Told name [] _ (s.store.run [.deliver (.call 0 label effects) reason]).1
      rw [Store.run_cons, Store.work, List.append_nil]
      exact hrun
    | none =>
      cases hhas : s.store.has signal with
      | true => exact h.attach (by simp [Store.waits, hhas, hreason]) label effects false
      | false =>
        rw [if_neg Bool.false_ne_true, List.append_nil]
        exact h.attach_of_not_has hhas label effects
  | unsubscribe label =>
    rw [notesOf, Scenario.step]
    cases (s.subscriptions.lookup label).join with
    | none =>
      rw [List.append_nil]
      exact h
    | some subscription => exact h.unsubscribe subscription.1 subscription.2
  | abort controller =>
    have hrun := (Store.telling_told name).run (h.push rfl :
      Store.Told name [.fire (.controller controller) .aborted] notes s.store)
    exact hrun
  | clear key | drop key =>
    rw [notesOf, List.append_nil]
    exact h.quiet (Store.reason?_clear ..) (Store.tags_clear ..) (Store.issued_clear ..)
  | advance time => exact (Store.telling_told name).advance h time
  | compose sources timeout hasClock =>
    rw [step_compose, notesOf_compose]
    split
    · rw [List.append_nil]
      exact h
    · exact h.compose hnew sources timeout
  | wait signal label =>
    rw [notesOf, List.append_nil]
    exact h
  | poll label =>
    obtain ⟨waits, hpoll⟩ := s.step_poll label
    rw [notesOf, List.append_nil, hpoll]
    exact h

theorem wakes_step (h : s.store.Wakes) (step : Step) : (s.step step).1.store.Wakes := by
  have hchanged := s.changed_step step
  generalize (s.step step).1.store = t at hchanged
  cases hchanged with
  | same => exact h
  | ran _ => exact Store.lasting_wakes.run h
  | advanced time => exact Store.lasting_wakes.advance h time
  | added => exact h.addController _
  | attached _ _ => exact h.attach _ _ _
  | unsubscribed signal id => exact h.unsubscribe signal id
  | composed sources timeout => exact h.compose _ sources timeout

/-- A label stands for the number that its listener got. -/
def Labelled (s : Scenario) (notes : List (Note Nat)) : Prop :=
  ∀ label name number, (s.subscriptions.lookup label).join = some (name, number) →
    .attached name number label false ∈ notes

theorem labelled_step (h : s.Labelled notes) (step : Step) :
    (s.step step).1.Labelled (notes ++ s.notesOf step) := by
  intro other name number htag
  rw [← tag?] at htag
  by_cases hsubscribe : ∃ signal label effects, step = .subscribe signal label effects
  · obtain ⟨signal, label, effects, rfl⟩ := hsubscribe
    rw [tag?_subscribe] at htag
    split at htag
    · next hother =>
      subst hother
      split at htag
      · next hwaits =>
        obtain ⟨rfl, rfl⟩ := Prod.mk.inj (Option.some.inj htag)
        refine List.mem_append_right _ ?_
        rw [notesOf, Store.reason?_of_waits hwaits]
        simp [Store.has_of_waits hwaits]
      · cases htag
    · exact List.mem_append_left _ (h other name number htag)
  · have hold := s.tag?_step fun signal label effects heq =>
      hsubscribe ⟨signal, label, effects, heq⟩
    rw [hold] at htag
    exact List.mem_append_left _ (h other name number htag)

/-! ## Answers -/

theorem answer_subscribe (s : Scenario) (signal : Name Nat) (label : String)
    (effects : List (Effect Nat)) :
    (s.step (.subscribe signal label effects)).2.1 = .accepted (s.store.waits signal) := by
  rw [step, Store.subscribe, Store.waits, Store.has]
  cases s.store.reason? signal with
  | some reason => simp
  | none => simp

theorem answer_poll {label : String} {signal : Name Nat} (h : s.waits.lookup label = some signal) :
    (s.step (.poll label)).2.1 = (s.store.awaited? signal).elim .pending .fired := by
  simp only [step, h]
  cases s.store.awaited? signal <;> rfl

/-! ## Runs -/

/-- What is kept from step to step. -/
structure Informed (deeds : List (Deed Nat)) (notes : List (Note Nat)) (s : Scenario) : Prop where
  booked : Booked deeds s.controllers s.merged.length s.store
  told : ∀ name, Store.Told name [] notes s.store
  wakes : s.store.Wakes
  labelled : s.Labelled notes

theorem Informed.step {deeds : List (Deed Nat)} (h : Informed deeds notes s) (step : Step) :
    Informed (deeds ++ s.deeds step) (notes ++ s.notesOf step) (s.step step).1 where
  booked := h.booked.step step
  told name := told_step (h.told name) (h.booked.newKeys _ (Nat.le_refl _)).1 step
  wakes := wakes_step h.wakes step
  labelled := labelled_step h.labelled step

theorem Informed.runSteps {deeds : List (Deed Nat)} (h : Informed deeds notes s)
    (steps : List Step) :
    Informed (deeds ++ s.history steps) (notes ++ s.notes steps) (s.runSteps steps) := by
  induction steps generalizing s deeds notes with
  | nil =>
    rw [history, Scenario.notes, List.append_nil, List.append_nil]
    exact h
  | cons step steps ih =>
    rw [history, Scenario.notes, ← List.append_assoc, ← List.append_assoc]
    exact ih (h.step step)

/-- At the beginning there is nothing. -/
theorem Informed.empty : Informed [] [] {} where
  booked := .empty
  told name := ⟨.waiting rfl rfl rfl (List.forall_mem_nil _), rfl⟩
  wakes _ _ he := by cases he
  labelled _ _ _ hlabel := by cases hlabel

/-- What the notes say has been done for the listeners of a signal, and what is done for it next. -/
structure Delivery (s : Scenario) (notes : List (Note Nat)) (name : Name Nat) : Prop where
  /-- Listeners are called as the signal fires, which it does once, and later ones at once. -/
  tale : Tale name (s.store.reason? name) (notesAbout name notes)
  /-- Listeners are numbered in the order of their subscription. -/
  numbers : (notesAbout name notes).filterMap Note.number? = List.range (s.store.issued name)
  /-- The reason never changes. -/
  lasting : ∀ reason, s.store.reason? name = some reason →
    ∀ more, (s.runSteps more).store.reason? name = some reason
  /-- A listener that is subscribed gets a number if the signal has not fired. -/
  waiting : s.store.waits name = true → ∀ label effects,
    (s.step (.subscribe name label effects)).2.1 = .accepted true ∧
      s.notesOf (.subscribe name label effects) =
        [.attached name (s.store.issued name) label false]
  /-- Otherwise it gets no number and is called at once. -/
  late : ∀ reason, s.store.reason? name = some reason → ∀ label effects,
    (s.step (.subscribe name label effects)).2.1 = .accepted false ∧
      ∃ more, s.notesOf (.subscribe name label effects) = .late name label reason false :: more
  /-- A listener can be taken away as long as it is attached, and so once. -/
  unsubscribe : ∀ label number, (s.subscriptions.lookup label).join = some (name, number) →
    .attached name number label false ∈ notes ∧
      (s.step (.unsubscribe label)).2.1 = .accepted ((s.store.reason? name).isNone &&
        decide (number ∈ (standing (notesAbout name notes)).map Prod.fst)) ∧
      s.notesOf (.unsubscribe label) =
        if (s.step (.unsubscribe label)).2.1 = .accepted true then [.removed name number] else []
  /-- Waiting is over once the signal has fired, with its reason. -/
  poll : ∀ label, s.waits.lookup label = some name →
    (s.step (.poll label)).2.1 = (s.store.reason? name).elim .pending .fired

/-- After any steps, what was reported is what the notes tell, and of every signal these say that
its listeners have been served and how the next ones will be. -/
theorem delivery_runSteps (steps : List Step) :
    ({} : Scenario).events steps = (({} : Scenario).notes steps).flatMap Note.events ∧
      ∀ name, Delivery (({} : Scenario).runSteps steps) (({} : Scenario).notes steps) name := by
  refine ⟨events_notes _ steps, fun name => ?_⟩
  have h := Informed.empty.runSteps steps
  rw [List.nil_append, List.nil_append] at h
  generalize ({} : Scenario).runSteps steps = s at h
  generalize ({} : Scenario).notes steps = notes at h
  have hstage := (h.told name).stage
  have htags := hstage.tags_eq
  refine ⟨hstage.tale, (h.told name).numbers, fun reason hreason more =>
    reason?_runSteps hreason more, ?_, ?_, ?_, ?_⟩
  · intro hwaits label effects
    refine ⟨by rw [answer_subscribe, hwaits], ?_⟩
    rw [notesOf, Store.reason?_of_waits hwaits]
    exact if_pos (Store.has_of_waits hwaits)
  · intro reason hreason label effects
    refine ⟨by rw [answer_subscribe, Store.waits, hreason, Option.isNone_some, Bool.and_false], ?_⟩
    rw [notesOf, hreason]
    exact ⟨_, rfl⟩
  · intro label number hlabel
    have hanswer : (s.step (.unsubscribe label)).2.1 =
        .accepted (decide (number ∈ s.store.calls name)) := by rw [step_unsubscribe hlabel]
    refine ⟨h.labelled label name number hlabel, ?_, ?_⟩
    · rw [hanswer, Store.calls_eq, htags]
      cases s.store.reason? name <;> rfl
    · simp only [hanswer, notesOf, hlabel, Store.found_unsubscribe, Answer.accepted.injEq]
  · intro label hlabel
    rw [answer_poll hlabel, h.wakes.awaited? name]

end Scenario

end DaemonRpc.Signal

import DaemonRpc.Proofs.Signal.Steps

/-!
# The deeds of a scenario

What a scenario has done to its signals is a list of `Deed`s: signals were merged, cleared,
subscribed to and unsubscribed from. Some deeds are the answers of steps (`Scenario.answered`), and
listeners do others while a step runs, at its moments (`Moment.deeds`, `Scenario.moments`).

A cascade does to the store what its deeds say (`Store.recorded_run`), and so do timers that fire
(`Store.recorded_advance`).
-/

namespace DaemonRpc.Signal

/-- Something that is done to signals. -/
inductive Deed (κ : Type) where
  /-- Signals, of which one may occur again, were merged under a key, with a timer or without. -/
  | composed (key : κ) (sources : List (Name κ)) (timed : Bool)
  /-- A merged signal was cleared. -/
  | cleared (key : κ)
  /-- A listener was attached to a signal. -/
  | subscribed (signal : Name κ)
  /-- An attached listener was taken away from a signal. -/
  | unsubscribed (signal : Name κ)
  deriving DecidableEq, Repr

variable {κ : Type} [DecidableEq κ]

/-- What is done to signals at a moment. -/
def Moment.deeds (m : Moment κ) : List (Deed κ) :=
  match m.task with
  | .perform (.clear key) => if (m.store.merge? key).isSome then [.cleared key] else []
  | .perform (.subscribe name _) => if m.store.waits name then [.subscribed name] else []
  | _ => []

/-- Listeners may do this. -/
def Deed.byListeners : Deed κ → Bool
  | .cleared _ | .subscribed _ => true
  | .composed _ _ _ | .unsubscribed _ => false

theorem Moment.byListeners_of_mem_deeds {m : Moment κ} {deed : Deed κ} (h : deed ∈ m.deeds) :
    deed.byListeners = true := by
  rw [deeds] at h
  split at h
  · split at h
    · rw [List.mem_singleton.1 h]
      rfl
    · cases h
  · split at h
    · rw [List.mem_singleton.1 h]
      rfl
    · cases h
  · cases h

namespace Store

variable {s t u : Store κ}

/-! ## What a cascade does -/

/-- The store has become another one by these deeds, and by signals that have fired. -/
structure Recorded (deeds : List (Deed κ)) (s t : Store κ) : Prop where
  has : ∀ name, t.has name = s.has name
  merge : ∀ key, (t.merge? key).isSome = (s.merge? key).isSome
  fired : ∀ name reason, s.reason? name = some reason → t.reason? name = some reason
  calls : ∀ name, t.reason? name = none →
    (t.calls name).length = (s.calls name).length + deeds.count (.subscribed name)
  cleared : ∀ key, t.isCleared key = (s.isCleared key || decide (.cleared key ∈ deeds))

namespace Recorded

/-- A signal that has not fired now had not fired before. -/
theorem unfired {deeds : List (Deed κ)} (h : Recorded deeds s t) {name : Name κ}
    (hname : t.reason? name = none) : s.reason? name = none := by
  cases hs : s.reason? name with
  | none => rfl
  | some reason =>
    rw [h.fired name reason hs] at hname
    cases hname

theorem refl (s : Store κ) : Recorded [] s s where
  has _ := rfl
  merge _ := rfl
  fired _ _ h := h
  calls _ _ := rfl
  cleared key := by simp

theorem trans {first second : List (Deed κ)} (h : Recorded first s t) (h' : Recorded second t u) :
    Recorded (first ++ second) s u where
  has name := (h'.has name).trans (h.has name)
  merge key := (h'.merge key).trans (h.merge key)
  fired name reason hname := h'.fired name reason (h.fired name reason hname)
  calls name hname := by
    rw [h'.calls name hname, h.calls name (h'.unfired hname), List.count_append, Nat.add_assoc]
  cleared key := by
    simp only [h'.cleared, h.cleared, List.mem_append, Bool.decide_or, Bool.or_assoc]

/-- A signal fires, and then it has no calls. -/
theorem markFired {name : Name κ} (h : s.waits name = true) (reason : AbortReason) :
    Recorded [] s (s.markFired name reason) where
  has := has_markFired s name reason
  merge _ := rfl
  fired _ _ := (Touched.fired h reason).reason?
  calls other hother := by
    have ho : other ≠ name := by
      rintro rfl
      rw [reason?_markFired (has_of_waits h), if_pos rfl] at hother
      cases hother
    rw [calls_markFired, if_neg ho]
    rfl
  cleared key := by simp [isCleared]

theorem attach {name : Name κ} (h : s.waits name = true) (label : String)
    (effects : List (Effect κ)) :
    Recorded [.subscribed name] s (s.attach name label effects) where
  has := has_attach s name label effects
  merge _ := rfl
  fired other reason hother := by rwa [reason?_attach]
  calls other hother := by
    rw [calls_attach, List.count_singleton, List.length_append]
    by_cases ho : other = name
    · subst ho
      simp [has_of_waits h]
    · simp [ho, Ne.symm ho]
  cleared key := by simp [isCleared]

/-- Nothing is attached to a signal that is not there. -/
theorem attach_of_not_has {name : Name κ} (h : s.has name = false) (label : String)
    (effects : List (Effect κ)) : Recorded [] s (s.attach name label effects) where
  has := has_attach s name label effects
  merge _ := rfl
  fired other reason hother := by rwa [reason?_attach]
  calls other hother := by
    have hnot : ¬ (other = name ∧ s.has other = true) := by
      rintro ⟨rfl, hhas⟩
      simp [h] at hhas
    rw [calls_attach, if_neg hnot, List.append_nil]
    rfl
  cleared key := by simp [isCleared]

theorem detach (s : Store κ) (key : κ) : Recorded [] s (s.detach key) where
  has := has_detach s key
  merge other := by
    rw [merge?_detach]
    split
    · exact Option.isSome_map
    · rfl
  fired name reason hname := by rwa [reason?_detach]
  calls name _ := by
    rw [calls_detach]
    rfl
  cleared other := by simp

theorem clear (s : Store κ) (key : κ) :
    Recorded (if (s.merge? key).isSome then [.cleared key] else []) s (s.clear key) where
  has := has_clear s key
  merge other := by
    rw [merge?_clear]
    split
    · exact Option.isSome_map
    · rfl
  fired name reason hname := by rwa [reason?_clear]
  calls name _ := by
    rw [calls_clear]
    split <;> simp
  cleared other := by
    rw [isCleared_clear]
    by_cases ho : other = key
    · subst ho
      cases s.merge? other <;> simp
    · split <;> simp [ho]

end Recorded

theorem recorded_work (s : Store κ) (task : Task κ) (rest : List (Task κ)) :
    Recorded (Moment.deeds ⟨task, rest, s⟩) s (s.work task).store := by
  match task with
  | .fire name reason =>
    rw [work]
    split
    · next h => exact .markFired h reason
    · exact .refl s
  | .deliver (.relay key) reason =>
    rw [work]
    split
    · next h => exact .markFired h reason
    · split
      · exact .refl s
      · exact .detach s key
  | .perform (.subscribe name label) =>
    cases hreason : s.reason? name with
    | some reason =>
      have hwaits : s.waits name = false := by simp [waits, hreason]
      simp only [Moment.deeds, work, hreason, hwaits]
      exact .refl s
    | none =>
      cases hhas : s.has name with
      | true =>
        have hwaits : s.waits name = true := by simp [waits, hhas, hreason]
        simp only [Moment.deeds, work, hreason, hwaits]
        exact .attach hwaits label []
      | false =>
        have hwaits : s.waits name = false := by simp [waits, hhas]
        simp only [Moment.deeds, work, hreason, hwaits]
        exact .attach_of_not_has hhas label []
  | .perform (.clear key) => exact .clear s key
  | .detach key => exact .detach s key
  | .deliver (.call _ _ _) _ | .perform (.abort _) | .perform (.count _) => exact .refl s

/-- A cascade does what is done at its moments. -/
theorem recorded_run (tasks : List (Task κ)) (s : Store κ) :
    Recorded ((s.moments tasks).flatMap Moment.deeds) s (s.run tasks).1 := by
  fun_induction moments tasks s with
  | case1 s =>
    rw [run]
    exact .refl s
  | case2 s task rest ih =>
    rw [run_cons, List.flatMap_cons]
    exact (s.recorded_work task rest).trans ih

theorem recorded_expire (s : Store κ) (key : κ) :
    Recorded ((s.expireMoments key).flatMap Moment.deeds) s (s.expire key).1 := by
  rw [expireMoments, expire]
  split
  · exact recorded_run _ s
  · exact .refl s

theorem recorded_expireAll (keys : List κ) (s : Store κ) :
    Recorded ((expireAllMoments keys s).flatMap Moment.deeds) s (expireAll keys s).1 := by
  induction keys generalizing s with
  | nil => exact .refl s
  | cons key keys ih =>
    rw [expireAllMoments, List.flatMap_append]
    exact (s.recorded_expire key).trans (ih _)

/-- Moving the clock does what is done while timers fire. -/
theorem recorded_advance (s : Store κ) (d : Duration) :
    Recorded ((s.advanceMoments d).flatMap Moment.deeds) s (s.advance d).1 := by
  have hclock : Recorded [] s { s with now := s.now + d.nanoseconds } :=
    ⟨fun _ => rfl, fun _ => rfl, fun _ _ h => h, fun _ _ => rfl, fun _ => by simp [isCleared]; rfl⟩
  exact hclock.trans (recorded_expireAll _ _)

/-! ## The numbers of calls -/

/-- The calls of a signal have different numbers, which were issued. -/
def Numbered (s : Store κ) : Prop :=
  ∀ name, (s.calls name).Nodup ∧ ∀ id ∈ s.calls name, id < s.issued name

theorem Numbered.markFired (h : s.Numbered) (name : Name κ) (reason : AbortReason) :
    (s.markFired name reason).Numbered := by
  intro other
  rw [calls_markFired, issued_markFired]
  split
  · simp
  · exact h other

theorem Numbered.attach (h : s.Numbered) (name : Name κ) (label : String)
    (effects : List (Effect κ)) : (s.attach name label effects).Numbered := by
  intro other
  rw [calls_attach, issued_attach]
  split
  · obtain ⟨hnodup, hlt⟩ := h other
    refine ⟨?_, ?_⟩
    · rw [← List.concat_eq_append]
      exact hnodup.concat fun hmem => Nat.lt_irrefl _ (hlt _ hmem)
    · intro id hid
      rcases List.mem_append.1 hid with hid | hid
      · exact Nat.lt_succ_of_lt (hlt id hid)
      · rw [List.mem_singleton.1 hid]
        exact Nat.lt_succ_self _
  · rw [List.append_nil]
    exact h other

theorem Numbered.unsubscribe (h : s.Numbered) (name : Name κ) (id : Nat) :
    (s.unsubscribe name id).1.Numbered := by
  intro other
  rw [calls_unsubscribe, issued_unsubscribe]
  split
  · exact ⟨(h other).1.filter _, fun i hi => (h other).2 i (List.mem_of_mem_filter hi)⟩
  · exact h other

/-- Taking a call away leaves one call less, if it was there. -/
theorem Numbered.length_unsubscribe (h : s.Numbered) (name : Name κ) (id : Nat) (other : Name κ) :
    ((s.unsubscribe name id).1.calls other).length +
        (if (s.unsubscribe name id).2 = true ∧ other = name then 1 else 0) =
      (s.calls other).length := by
  simp only [calls_unsubscribe, found_unsubscribe, decide_eq_true_iff]
  by_cases ho : other = name
  · subst ho
    have hsplit := List.length_eq_countP_add_countP (· == id) (l := s.calls other)
    rw [← List.count, (h other).1.count] at hsplit
    simp only [hsplit, if_true, and_true, ← List.countP_eq_length_filter, Bool.not_eq_true,
      beq_eq_false_iff_ne, Nat.add_comm]
  · simp [ho]

theorem lasting_numbered : Lasting fun _ (s : Store κ) => s.Numbered where
  work task _ s h := by
    have htouched := s.touched_work task
    generalize (s.work task).store = t at htouched
    cases htouched with
    | same => exact h
    | fired _ reason => exact h.markFired _ reason
    | attached _ label => exact h.attach _ label []
    | detached key => exact fun name => by simpa using h name
    | cleared key => exact fun name => by simpa using h name
  expire _ _ _ h := h
  clock _ _ h := h

end Store

/-! ## Scenarios -/

namespace Scenario

/-- What is done to signals as a step answers. -/
def answered (s : Scenario) (step : Step) : List (Deed Nat) :=
  match step with
  | .subscribe signal _ _ =>
    if (s.step step).2.1 = .accepted true then [.subscribed signal] else []
  | .unsubscribe label =>
    if (s.step step).2.1 = .accepted true then
      (s.subscriptions.lookup label).join.toList.map fun (signal, _) => .unsubscribed signal
    else []
  | .compose sources timeout _ =>
    -- Signals that are not there yet are not followed.
    if (s.step step).2.1 = .done then
      [.composed s.merged.length (sources.filter s.store.has) (timeout.any (!·.isZero))]
    else []
  | _ => []

/-- What is done to signals in a step. -/
def deeds (s : Scenario) (step : Step) : List (Deed Nat) :=
  (s.moments step).flatMap Moment.deeds ++ s.answered step

/-- A step that has a task and answers nothing more does what the task comes to. -/
theorem deeds_of_task {s : Scenario} {step : Step} {task : Task Nat}
    (htask : s.task? step = some task) (hanswered : s.answered step = []) :
    s.deeds step = (s.store.moments [task]).flatMap Moment.deeds := by
  rw [deeds, moments_of_task htask, hanswered, List.append_nil]

/-- A step that has no moments does what it answers. -/
theorem deeds_of_answered {s : Scenario} {step : Step} (htask : s.task? step = none)
    (htime : step.time? = none) : s.deeds step = s.answered step := by
  simp [deeds, moments, htask, htime]

/-- What is done to signals in steps one after the other. -/
def history : Scenario → List Step → List (Deed Nat)
  | _, [] => []
  | s, step :: steps => s.deeds step ++ history (s.step step).1 steps

end Scenario

end DaemonRpc.Signal

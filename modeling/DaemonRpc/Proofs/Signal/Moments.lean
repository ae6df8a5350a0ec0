import DaemonRpc.Proofs.Signal.Views

/-!
# The moments of a cascade

A cascade does its first task, which may have further tasks in consequence, and goes on with these
before the others. `Store.work` is what one task comes to; `Store.run_cons` says that a cascade is
made of such works. `Store.moments` lists the moments at which a task is due, each with the tasks
that wait behind it and the store as it is then.

What every work keeps is `Store.Lasting`: it holds at each moment of a cascade, and at its end if it
holds after one of its moments. Timers that fire when the clock moves are such cascades, one after
the other (`Store.advanceMoments`). No cascade makes a signal (`Store.lasting_has`), or takes back
that one has fired (`Store.lasting_reason?`).
-/

namespace DaemonRpc.Signal

/-- What a task comes to. -/
structure Work (κ : Type) where
  /-- What is to be done in consequence. -/
  tasks : List (Task κ) := []
  store : Store κ
  /-- What is reported. -/
  events : List (Event κ) := []

/-- A moment of a cascade. -/
structure Moment (κ : Type) where
  /-- The task that is due. -/
  task : Task κ
  /-- The tasks that wait. -/
  rest : List (Task κ)
  store : Store κ

namespace Store

variable {κ : Type} [DecidableEq κ] {s : Store κ}

/-- The signal is there and has not fired. -/
def waits (s : Store κ) (name : Name κ) : Bool := s.has name && (s.reason? name).isNone

theorem has_of_waits {name : Name κ} (h : s.waits name = true) : s.has name = true :=
  (Bool.and_eq_true_iff.1 h).1

theorem reason?_of_waits {name : Name κ} (h : s.waits name = true) : s.reason? name = none :=
  Option.isNone_iff_eq_none.1 (Bool.and_eq_true_iff.1 h).2

/-- What one task comes to. -/
def work (s : Store κ) : Task κ → Work κ
  | .fire name reason =>
    if s.waits name then
      { tasks := deliverAll (s.listeners name) reason, store := s.markFired name reason }
    else { store := s }
  | .deliver (.relay key) reason =>
    -- The merged signal is detached after its listeners were called, and what they did.
    if s.waits (.merged key) then
      { tasks := deliverAll (s.listeners (.merged key)) reason ++ [.detach key]
        store := s.markFired (.merged key) reason }
    else if s.has (.merged key) then { store := s }
    else { store := s.detach key }
  | .deliver (.call _ label effects) reason =>
    { tasks := performAll effects, store := s, events := [.called label reason] }
  | .perform (.abort n) => { tasks := [.fire (.controller n) .aborted], store := s }
  | .perform (.clear key) => { store := s.clear key }
  | .perform (.count name) => { store := s, events := [.counted name (s.listenerCount name)] }
  | .perform (.subscribe name label) =>
    match s.reason? name with
    | some reason => { store := s, events := [.called label reason, .subscribed name false] }
    | none => { store := s.attach name label [], events := [.subscribed name true] }
  | .detach key => { store := s.detach key }

/-! ## Cascades are made of works -/

theorem run_fire (s : Store κ) (name : Name κ) (reason : AbortReason) (rest : List (Task κ)) :
    s.run (.fire name reason :: rest) =
      if s.waits name then
        (s.markFired name reason).run (deliverAll (s.listeners name) reason ++ rest)
      else s.run rest := by
  cases he : s.state? name with
  | none =>
    have hwaits : s.waits name = false := by simp [waits, has, he]
    rw [run_fire_of_unknown he, hwaits]
    rfl
  | some e =>
    have hlisteners : s.listeners name = e.listeners := by rw [listeners, he]; rfl
    cases hreason : e.reason with
    | none =>
      have hwaits : s.waits name = true := by simp [waits, has, reason?, he, hreason]
      rw [run_fire_of_waiting he hreason, hwaits, hlisteners, if_pos rfl]
    | some r =>
      have hwaits : s.waits name = false := by simp [waits, has, reason?, he, hreason]
      rw [run_fire_of_fired he (by rw [hreason]; rfl), hwaits]
      rfl

/-- Calling a relay fires the merged signal behind it, unless that has fired, and detaches it when
all that follows from that is done. -/
theorem run_relay (s : Store κ) (key : κ) (reason : AbortReason) (rest : List (Task κ)) :
    s.run (.deliver (.relay key) reason :: rest) =
      if s.waits (.merged key) then
        (s.markFired (.merged key) reason).run
          (deliverAll (s.listeners (.merged key)) reason ++ .detach key :: rest)
      else if s.has (.merged key) then s.run rest
      else (s.detach key).run rest := by
  rw [run]
  cases hreason : s.reason? (.merged key) with
  | some r =>
    have hhas : s.has (.merged key) = true := has_of_reason? (by rw [hreason]; rfl)
    have hwaits : s.waits (.merged key) = false := by rw [waits, hreason]; simp
    rw [hwaits, hhas]
    rfl
  | none =>
    rw [run_fire]
    cases hhas : s.has (.merged key) with
    | true =>
      have hwaits : s.waits (.merged key) = true := by rw [waits, hhas, hreason]; rfl
      rw [hwaits]
      rfl
    | false =>
      have hwaits : s.waits (.merged key) = false := by rw [waits, hhas]; rfl
      rw [hwaits, run]
      rfl

/-- A cascade does its first task and goes on with what follows from it. -/
theorem run_cons (task : Task κ) (rest : List (Task κ)) (s : Store κ) :
    s.run (task :: rest) =
      (((s.work task).store.run ((s.work task).tasks ++ rest)).1,
        (s.work task).events ++ ((s.work task).store.run ((s.work task).tasks ++ rest)).2) := by
  match task with
  | .fire name reason =>
    rw [run_fire, work]
    split <;> rfl
  | .deliver (.relay key) reason =>
    rw [run_relay, work]
    split
    · rw [List.append_assoc]
      rfl
    · split <;> rfl
  | .perform (.subscribe name label) =>
    rw [run, work]
    cases s.reason? name <;> rfl
  | .deliver (.call _ _ _) _ | .perform (.abort _) | .perform (.clear _) | .perform (.count _)
  | .detach _ =>
    rw [run]
    rfl

/-- A work leaves fewer signals unfired, or as many and less to do. -/
theorem work_less (task : Task κ) (rest : List (Task κ)) (s : Store κ) :
    Prod.Lex (· < ·) (· < ·) ((s.work task).store.unfired, weight ((s.work task).tasks ++ rest))
      (s.unfired, weight (task :: rest)) := by
  have hfire : ∀ (name : Name κ) (reason : AbortReason), s.waits name = true →
      (s.markFired name reason).unfired < s.unfired := by
    intro name reason hwaits
    obtain ⟨e, he⟩ := Option.isSome_iff_exists.1 (has_of_waits hwaits)
    have hreason := reason?_of_waits hwaits
    rw [reason?, he] at hreason
    exact unfired_markFired reason he hreason
  have hsame : ∀ {t : Store κ} {tasks : List (Task κ)}, t.unfired = s.unfired →
      weight tasks < task.weight →
      Prod.Lex (· < ·) (· < ·) (t.unfired, weight (tasks ++ rest))
        (s.unfired, weight (task :: rest)) := by
    intro t tasks hunfired hweight
    rw [hunfired, weight_append, weight]
    exact Prod.Lex.right _ (Nat.add_lt_add_right hweight _)
  -- Most tasks have nothing in consequence.
  have hdone : ∀ {t : Store κ}, t.unfired = s.unfired → 0 < task.weight →
      Prod.Lex (· < ·) (· < ·) (t.unfired, weight ([] ++ rest))
        (s.unfired, weight (task :: rest)) :=
    fun hunfired hweight => hsame hunfired hweight
  cases task with
  | fire name reason =>
    rw [work]
    split
    · next hwaits => exact Prod.Lex.left _ _ (hfire name reason hwaits)
    · exact hdone rfl Nat.zero_lt_one
  | deliver listener reason =>
    cases listener with
    | relay key =>
      rw [work]
      split
      · next hwaits => exact Prod.Lex.left _ _ (hfire _ reason hwaits)
      · split
        · exact hdone rfl (Nat.zero_lt_succ 2)
        · exact hdone (s.unfired_detach key) (Nat.zero_lt_succ 2)
    | call id label effects =>
      refine hsame rfl ?_
      rw [work, weight_performAll, Task.weight]
      omega
  | perform effect =>
    cases effect with
    | subscribe name label =>
      rw [work]
      split
      · exact hdone rfl Nat.zero_lt_two
      · exact hdone (s.unfired_attach name label []) Nat.zero_lt_two
    | abort n => exact hsame rfl Nat.one_lt_two
    | clear key => exact hdone (s.unfired_clear key) Nat.zero_lt_two
    | count name => exact hdone rfl Nat.zero_lt_two
  | detach key => exact hdone (s.unfired_detach key) Nat.zero_lt_one

/-! ## Moments -/

/-- The moments of a cascade. -/
def moments (tasks : List (Task κ)) (s : Store κ) : List (Moment κ) :=
  match tasks with
  | [] => []
  | task :: rest => ⟨task, rest, s⟩ :: moments ((s.work task).tasks ++ rest) (s.work task).store
termination_by (s.unfired, weight tasks)
decreasing_by exact work_less task rest s

/-- What is reported in a cascade is reported at its moments. -/
theorem events_run (tasks : List (Task κ)) (s : Store κ) :
    (s.run tasks).2 = (s.moments tasks).flatMap fun m => (m.store.work m.task).events := by
  fun_induction moments tasks s with
  | case1 => rw [run]; rfl
  | case2 s task rest ih => rw [run_cons, List.flatMap_cons, ih]

/-! ## Timers -/

/-- The moments of the cascade of a timer, which is none if the timer does not run. -/
def expireMoments (s : Store κ) (key : κ) : List (Moment κ) :=
  if s.hasTimer key then s.moments [.deliver (.relay key) .timedOut] else []

/-- The moments while timers fire one after the other. -/
def expireAllMoments : List κ → Store κ → List (Moment κ)
  | [], _ => []
  | key :: rest, s => s.expireMoments key ++ expireAllMoments rest (s.expire key).1

/-- The moments while the clock moves. -/
def advanceMoments (s : Store κ) (d : Duration) : List (Moment κ) :=
  let s := { s with now := s.now + d.nanoseconds }
  expireAllMoments s.due s

theorem events_expire (s : Store κ) (key : κ) :
    (s.expire key).2 = (s.expireMoments key).flatMap fun m => (m.store.work m.task).events := by
  rw [expire, expireMoments]
  split
  · exact events_run _ s
  · rfl

theorem events_expireAll (keys : List κ) (s : Store κ) :
    (expireAll keys s).2 =
      (expireAllMoments keys s).flatMap fun m => (m.store.work m.task).events := by
  induction keys generalizing s with
  | nil => rfl
  | cons key keys ih =>
    rw [expireAllMoments, List.flatMap_append, ← events_expire, ← ih]
    rfl

/-! ## Invariants of cascades -/

/-- What every work of a cascade keeps, with the tasks that remain, the cascade keeps. -/
theorem run_of_work {P : List (Task κ) → Store κ → Prop}
    (hwork : ∀ task rest s, P (task :: rest) s →
      P ((s.work task).tasks ++ rest) (s.work task).store)
    {tasks : List (Task κ)} (h : P tasks s) : P [] (s.run tasks).1 := by
  fun_induction moments tasks s with
  | case1 s => rwa [run]
  | case2 s task rest ih =>
    rw [run_cons]
    exact ih (hwork task rest s h)

/-- What every work keeps, timers keep that fire one after the other, if each may start to fire. -/
theorem expireAll_of_work {P : List (Task κ) → Store κ → Prop}
    (hwork : ∀ task rest s, P (task :: rest) s →
      P ((s.work task).tasks ++ rest) (s.work task).store)
    {keys : List κ}
    (hexpire : ∀ key ∈ keys, ∀ s, s.hasTimer key = true → P [] s →
      P [.deliver (.relay key) .timedOut] s)
    (h : P [] s) : P [] (expireAll keys s).1 := by
  induction keys generalizing s with
  | nil => exact h
  | cons key keys ih =>
    obtain ⟨hkey, hkeys⟩ := List.forall_mem_cons.1 hexpire
    have hfirst : P [] (s.expire key).1 := by
      rw [expire]
      split
      · next htimer => exact run_of_work hwork (hkey s htimer h)
      · exact h
    exact ih hkeys hfirst

/-- What is kept by every work of a cascade, with the tasks that remain, when a timer fires and when
the clock moves. -/
structure Lasting (P : List (Task κ) → Store κ → Prop) : Prop where
  work : ∀ task rest s, P (task :: rest) s → P ((s.work task).tasks ++ rest) (s.work task).store
  expire : ∀ s key, s.hasTimer key = true → P [] s → P [.deliver (.relay key) .timedOut] s
  clock : ∀ s now, P [] s → P [] { s with now }

namespace Lasting

variable {P : List (Task κ) → Store κ → Prop} (hP : Lasting P)
include hP

/-- A cascade keeps an invariant. -/
protected theorem run {tasks : List (Task κ)} (h : P tasks s) : P [] (s.run tasks).1 :=
  run_of_work hP.work h

/-- An invariant holds at each moment of a cascade. -/
theorem moments {tasks : List (Task κ)} (h : P tasks s) :
    ∀ m ∈ s.moments tasks, P (m.task :: m.rest) m.store := by
  fun_induction Store.moments tasks s with
  | case1 s => simp
  | case2 s task rest ih => exact List.forall_mem_cons.2 ⟨h, ih (hP.work task rest s h)⟩

/-- What holds after the work of a moment holds at the end of the cascade. -/
theorem run_of_moment {tasks : List (Task κ)} {m : Moment κ} (hm : m ∈ s.moments tasks)
    (h : P ((m.store.work m.task).tasks ++ m.rest) (m.store.work m.task).store) :
    P [] (s.run tasks).1 := by
  fun_induction Store.moments tasks s with
  | case1 s => simp at hm
  | case2 s task rest ih =>
    rw [run_cons]
    rcases List.mem_cons.1 hm with rfl | hm
    · exact hP.run h
    · exact ih hm

theorem expire_of (h : P [] s) (key : κ) : P [] (s.expire key).1 := by
  rw [Store.expire]
  split
  · next htimer => exact hP.run (hP.expire s key htimer h)
  · exact h

protected theorem expireAll (h : P [] s) (keys : List κ) : P [] (expireAll keys s).1 :=
  expireAll_of_work hP.work (fun key _ s htimer => hP.expire s key htimer) h

theorem expireAllMoments (h : P [] s) (keys : List κ) :
    ∀ m ∈ expireAllMoments keys s, P (m.task :: m.rest) m.store := by
  induction keys generalizing s with
  | nil => simp [Store.expireAllMoments]
  | cons key keys ih =>
    rw [Store.expireAllMoments]
    refine List.forall_mem_append.2 ⟨?_, ih (hP.expire_of h key)⟩
    rw [expireMoments]
    split
    · next htimer => exact hP.moments (hP.expire s key htimer h)
    · simp

theorem expireAll_of_moment {keys : List κ} {m : Moment κ}
    (hm : m ∈ Store.expireAllMoments keys s)
    (h : P ((m.store.work m.task).tasks ++ m.rest) (m.store.work m.task).store) :
    P [] (Store.expireAll keys s).1 := by
  induction keys generalizing s with
  | nil => simp [Store.expireAllMoments] at hm
  | cons key keys ih =>
    rcases List.mem_append.1 hm with hm | hm
    · have hnext : P [] (s.expire key).1 := by
        rw [expireMoments] at hm
        rw [Store.expire]
        split at hm
        · next htimer =>
          rw [if_pos htimer]
          exact hP.run_of_moment hm h
        · simp at hm
      -- The timers after the one of the moment keep what holds then.
      exact hP.expireAll hnext keys
    · exact ih hm

/-- Moving the clock keeps an invariant. -/
protected theorem advance (h : P [] s) (d : Duration) : P [] (s.advance d).1 :=
  hP.expireAll (hP.clock s _ h) _

/-- What holds before the clock moves holds at each moment while timers fire. -/
theorem advanceMoments (h : P [] s) (d : Duration) :
    ∀ m ∈ s.advanceMoments d, P (m.task :: m.rest) m.store :=
  hP.expireAllMoments (hP.clock s _ h) _

theorem advance_of_moment {d : Duration} {m : Moment κ} (hm : m ∈ s.advanceMoments d)
    (h : P ((m.store.work m.task).tasks ++ m.rest) (m.store.work m.task).store) :
    P [] (s.advance d).1 :=
  hP.expireAll_of_moment hm h

end Lasting

/-! ## What no cascade changes -/

/-- How one work may change a store. -/
inductive Touched (s : Store κ) : Store κ → Prop
  | same : Touched s s
  | fired {name : Name κ} (h : s.waits name = true) (reason : AbortReason) :
      Touched s (s.markFired name reason)
  | attached {name : Name κ} (h : s.reason? name = none) (label : String) :
      Touched s (s.attach name label [])
  | detached (key : κ) : Touched s (s.detach key)
  | cleared (key : κ) : Touched s (s.clear key)

theorem touched_work (s : Store κ) (task : Task κ) : Touched s (s.work task).store := by
  unfold work
  split
  case h_1 name reason =>
    split
    · next h => exact .fired h reason
    · exact .same
  case h_2 key reason =>
    split
    · next h => exact .fired h reason
    · split
      · exact .same
      · exact .detached key
  case h_5 key => exact .cleared key
  case h_7 name label =>
    split
    · exact .same
    · next h => exact .attached h label
  case h_8 key => exact .detached key
  all_goals exact .same

theorem Touched.has {t : Store κ} (h : Touched s t) (name : Name κ) : t.has name = s.has name := by
  cases h with
  | same => rfl
  | fired h reason => rw [has_markFired]
  | attached h label => rw [has_attach]
  | detached key => rw [has_detach]
  | cleared key => rw [has_clear]

/-- A signal that has fired keeps its reason. -/
theorem Touched.reason? {t : Store κ} (h : Touched s t) {name : Name κ} {reason : AbortReason}
    (hname : s.reason? name = some reason) : t.reason? name = some reason := by
  cases h with
  | same => exact hname
  | @fired other h r =>
    have hne : name ≠ other := by
      rintro rfl
      rw [reason?_of_waits h] at hname
      cases hname
    rw [reason?_markFired (has_of_waits h), if_neg hne, hname]
  | attached h label => rwa [reason?_attach]
  | detached key => rwa [reason?_detach]
  | cleared key => rwa [reason?_clear]

/-- No cascade makes a signal. -/
theorem lasting_has (name : Name κ) (b : Bool) :
    Lasting fun _ (s : Store κ) => s.has name = b where
  work task _ s h := ((s.touched_work task).has name).trans h
  expire _ _ _ h := h
  clock _ _ h := h

/-- No cascade takes back that a signal has fired. -/
theorem lasting_reason? (name : Name κ) (reason : AbortReason) :
    Lasting fun _ (s : Store κ) => s.reason? name = some reason where
  work task _ s h := (s.touched_work task).reason? h
  expire _ _ _ h := h
  clock _ _ h := h

end Store

end DaemonRpc.Signal

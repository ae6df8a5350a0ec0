import DaemonRpc.Proofs.Signal.Steps

/-!
# Notes of a scenario

What is reported while signals fire names the label of a listener, and listeners may share a label.
A `Note` says more: for which signal a listener is called and under which number it was attached,
when the signal fires and when all its listeners have been called. What is reported can be read off
the notes (`Note.events`).

Notes are taken of errands: an `Errand` is a task of a cascade that knows for which signal a
listener is called. `Store.chronicle` are the notes of a cascade and `Scenario.notes` those of
steps; they tell all that is reported (`Store.events_chronicle`, `Scenario.events_notes`). What
every errand keeps, with the notes that have been taken so far, is `Store.Telling`.
-/

namespace DaemonRpc.Signal

/-- Something that happens to the listeners of a signal. -/
inductive Note (κ : Type) where
  /-- A listener was attached and got a number. The one that subscribed it may be a listener. -/
  | attached (signal : Name κ) (number : Nat) (label : String) (byListener : Bool)
  /-- An attached listener was taken away. -/
  | removed (signal : Name κ) (number : Nat)
  /-- The signal fired. -/
  | fired (signal : Name κ) (reason : AbortReason)
  /-- A listener was called that was attached when the signal fired. -/
  | called (signal : Name κ) (number : Nat) (label : String) (reason : AbortReason)
  /-- All listeners have been called that were attached when the signal fired. -/
  | closed (signal : Name κ)
  /-- A listener got no number, since the signal had fired, and was called at once. -/
  | late (signal : Name κ) (label : String) (reason : AbortReason) (byListener : Bool)
  /-- A listener subscribed another to a signal that is not there. -/
  | missed (signal : Name κ)
  /-- A listener counted the listeners of a signal. -/
  | counted (signal : Name κ) (count : Nat)
  deriving DecidableEq, Repr

namespace Note

variable {κ : Type}

/-- What is reported as this happens. -/
def events : Note κ → List (Event κ)
  | .attached signal _ _ true => [.subscribed signal true]
  | .called _ _ label reason | .late _ label reason false => [.called label reason]
  | .late signal label reason true => [.called label reason, .subscribed signal false]
  | .missed signal => [.subscribed signal true]
  | .counted signal count => [.counted signal count]
  | .attached _ _ _ false | .removed _ _ | .fired _ _ | .closed _ => []

/-- It happens to this signal. -/
def isAbout [DecidableEq κ] (name : Name κ) : Note κ → Bool
  | .attached signal _ _ _ | .removed signal _ | .fired signal _ | .called signal _ _ _
  | .closed signal | .late signal _ _ _ => signal = name
  | .missed _ | .counted _ _ => false

end Note

/-- Something to be done while signals fire. -/
inductive Errand (κ : Type) where
  /-- Fire a signal unless it has fired. -/
  | fire (signal : Name κ) (reason : AbortReason)
  /-- Call a listener of a signal that fired. -/
  | call (signal : Name κ) (listener : Listener κ) (reason : AbortReason)
  /-- Fire a merged signal whose timer is due, unless it has fired, and detach it. -/
  | expire (key : κ)
  /-- Have an effect. -/
  | perform (effect : Effect κ)
  /-- Detach a merged signal that fired. -/
  | detach (key : κ)
  /-- Note that all listeners of a signal have been called. -/
  | close (signal : Name κ)

namespace Errand

variable {κ : Type}

/-- The task of an errand. -/
def task? : Errand κ → Option (Task κ)
  | .fire signal reason => some (.fire signal reason)
  | .call _ listener reason => some (.deliver listener reason)
  | .expire key => some (.deliver (.relay key) .timedOut)
  | .perform effect => some (.perform effect)
  | .detach key => some (.detach key)
  | .close _ => none

/-- The signal that an errand fires unless it has fired, with the reason. -/
def fires? : Errand κ → Option (Name κ × AbortReason)
  | .fire signal reason => some (signal, reason)
  | .call _ (.relay key) reason => some (.merged key, reason)
  | .expire key => some (.merged key, .timedOut)
  | _ => none

/-- What is to be done in consequence, when the listeners of a signal that fires were called. -/
def next : Errand κ → List (Errand κ)
  | .call _ (.relay key) _ | .expire key => [.detach key]
  | .call _ (.call _ _ effects) _ => effects.map .perform
  | .perform (.abort n) => [.fire (.controller n) .aborted]
  | _ => []

/-- It calls a listener of this signal, or is the last for it. -/
def isFor [DecidableEq κ] (name : Name κ) : Errand κ → Bool
  | .call signal _ _ | .close signal => signal = name
  | _ => false

/-- Listeners are called for a signal before anything that is to be done in consequence. -/
theorem isFor_of_mem_next [DecidableEq κ] {e next : Errand κ} (h : next ∈ e.next) (name : Name κ) :
    next.isFor name = false := by
  match e with
  | .call _ (.relay key) _ | .expire key =>
    rw [List.mem_singleton.1 h]
    rfl
  | .call _ (.call _ _ effects) _ =>
    obtain ⟨effect, -, rfl⟩ := List.mem_map.1 h
    rfl
  | .perform (.abort n) =>
    rw [List.mem_singleton.1 h]
    rfl
  | .perform (.clear _) | .perform (.count _) | .perform (.subscribe _ _) | .fire _ _ | .detach _
  | .close _ => cases h

end Errand

/-- The tasks of errands. -/
def tasksOf {κ : Type} (errands : List (Errand κ)) : List (Task κ) := errands.filterMap Errand.task?

section

variable {κ : Type}

theorem tasksOf_append (first second : List (Errand κ)) :
    tasksOf (first ++ second) = tasksOf first ++ tasksOf second :=
  List.filterMap_append

theorem tasksOf_map_perform (effects : List (Effect κ)) :
    tasksOf (effects.map .perform) = performAll effects := by
  rw [tasksOf, List.filterMap_map, performAll, ← List.filterMap_eq_map]
  rfl

theorem tasksOf_map_call (name : Name κ) (listeners : List (Listener κ)) (reason : AbortReason) :
    tasksOf (listeners.map fun listener => .call name listener reason) =
      deliverAll listeners reason := by
  rw [tasksOf, List.filterMap_map, deliverAll, ← List.filterMap_eq_map]
  rfl

end

namespace Store

variable {κ : Type} [DecidableEq κ]

/-! ## Errands -/

/-- What is to be done in consequence of an errand. -/
def errands (s : Store κ) (e : Errand κ) : List (Errand κ) :=
  match e.fires? with
  | some (name, reason) =>
    if s.waits name then
      (s.listeners name).map (fun listener => .call name listener reason) ++ .close name :: e.next
    else []
  | none => e.next

/-- The note of a subscription by a listener. -/
def noteSubscription (s : Store κ) (name : Name κ) (label : String) : Note κ :=
  match s.reason? name with
  | some reason => .late name label reason true
  | none => if s.has name then .attached name (s.issued name) label true else .missed name

/-- What is noted of an errand. -/
def notes (s : Store κ) (e : Errand κ) : List (Note κ) :=
  match e.fires? with
  | some (name, reason) => if s.waits name then [.fired name reason] else []
  | none =>
    match e with
    | .call name (.call number label _) reason => [.called name number label reason]
    | .perform (.count name) => [.counted name (s.listenerCount name)]
    | .perform (.subscribe name label) => [s.noteSubscription name label]
    | .close name => [.closed name]
    | _ => []

/-- The store after an errand. -/
def after (s : Store κ) (e : Errand κ) : Store κ := e.task?.elim s fun task => (s.work task).store

/-- An errand that may fire a signal does so if the signal waits. -/
theorem errands_of_fires {s : Store κ} {e : Errand κ} {name : Name κ} {reason : AbortReason}
    (he : e.fires? = some (name, reason)) :
    s.errands e = if s.waits name then
      (s.listeners name).map (fun listener => .call name listener reason) ++ .close name :: e.next
    else [] := by
  rw [errands, he]

theorem notes_of_fires {s : Store κ} {e : Errand κ} {name : Name κ} {reason : AbortReason}
    (he : e.fires? = some (name, reason)) :
    s.notes e = if s.waits name then [.fired name reason] else [] := by
  unfold notes
  rw [he]

/-- A relay to a merged signal that is not there detaches it all the same. -/
theorem store_work_relay (s : Store κ) (key : κ) (reason : AbortReason) :
    s.waits (.merged key) = true ∧
        (s.work (.deliver (.relay key) reason)).store = s.markFired (.merged key) reason ∨
      s.waits (.merged key) = false ∧
        ((s.work (.deliver (.relay key) reason)).store = s ∨
          ∃ k, (s.work (.deliver (.relay key) reason)).store = s.detach k) := by
  rw [work]
  cases s.waits (.merged key) with
  | true => exact .inl ⟨rfl, rfl⟩
  | false =>
    refine .inr ⟨rfl, ?_⟩
    cases s.has (.merged key) with
    | true => exact .inl rfl
    | false => exact .inr ⟨key, rfl⟩

theorem tasks_work_relay (s : Store κ) (key : κ) (reason : AbortReason) :
    (s.work (.deliver (.relay key) reason)).tasks =
      if s.waits (.merged key) then deliverAll (s.listeners (.merged key)) reason ++ [.detach key]
      else [] := by
  rw [work]
  split
  · rfl
  · split <;> rfl

theorem events_work_relay (s : Store κ) (key : κ) (reason : AbortReason) :
    (s.work (.deliver (.relay key) reason)).events = [] := by
  rw [work]
  split
  · rfl
  · split <;> rfl

/-- An errand that may fire a signal marks it as fired if the signal waits. -/
theorem after_of_fires (s : Store κ) {e : Errand κ} {name : Name κ} {reason : AbortReason}
    (he : e.fires? = some (name, reason)) :
    s.waits name = true ∧ s.after e = s.markFired name reason ∨
      s.waits name = false ∧ (s.after e = s ∨ ∃ key, s.after e = s.detach key) := by
  match e with
  | .fire signal reason =>
    obtain ⟨rfl, rfl⟩ := Prod.mk.inj (Option.some.inj he)
    show _ ∧ (s.work (.fire signal reason)).store = _ ∨
      _ ∧ ((s.work (.fire signal reason)).store = _ ∨
        ∃ key, (s.work (.fire signal reason)).store = _)
    rw [work]
    cases s.waits signal with
    | true => exact .inl ⟨rfl, rfl⟩
    | false => exact .inr ⟨rfl, .inl rfl⟩
  | .call _ (.relay key) r =>
    obtain ⟨rfl, rfl⟩ := Prod.mk.inj (Option.some.inj he)
    exact s.store_work_relay key r
  | .expire key =>
    obtain ⟨rfl, rfl⟩ := Prod.mk.inj (Option.some.inj he)
    exact s.store_work_relay key .timedOut

/-- The errands in consequence of firing a signal, as tasks. -/
theorem tasksOf_ringing (s : Store κ) (name : Name κ) (reason : AbortReason)
    (next : List (Errand κ)) :
    tasksOf (if s.waits name then
        (s.listeners name).map (fun listener => .call name listener reason) ++ .close name :: next
      else []) =
      if s.waits name then deliverAll (s.listeners name) reason ++ tasksOf next else [] := by
  split
  · rw [tasksOf_append, tasksOf_map_call]
    rfl
  · rfl

/-- The consequences of an errand are those of its task. -/
theorem tasksOf_errands (s : Store κ) (e : Errand κ) :
    tasksOf (s.errands e) = e.task?.elim [] fun task => (s.work task).tasks := by
  match e with
  | .fire name reason =>
    show tasksOf (if _ then _ else _) = (s.work (.fire name reason)).tasks
    rw [tasksOf_ringing, work]
    split <;> simp [tasksOf, Errand.next]
  | .call _ (.relay key) reason =>
    exact (s.tasksOf_ringing ..).trans (s.tasks_work_relay key reason).symm
  | .expire key => exact (s.tasksOf_ringing ..).trans (s.tasks_work_relay key .timedOut).symm
  | .call _ (.call _ _ effects) _ => exact tasksOf_map_perform effects
  | .perform (.subscribe name label) =>
    show [] = (s.work (.perform (.subscribe name label))).tasks
    rw [work]
    split <;> rfl
  | .perform (.abort _) | .perform (.clear _) | .perform (.count _) | .detach _ | .close _ => rfl

/-- Nothing is reported of a firing itself. -/
theorem events_ringing (s : Store κ) (name : Name κ) (reason : AbortReason) :
    (if s.waits name then [Note.fired name reason] else []).flatMap Note.events = [] := by
  split <;> rfl

/-- What is noted of an errand tells what its task reports. -/
theorem events_notes (s : Store κ) (e : Errand κ) :
    (s.notes e).flatMap Note.events = e.task?.elim [] fun task => (s.work task).events := by
  match e with
  | .fire name reason =>
    refine (s.events_ringing name reason).trans ?_
    show [] = (s.work (.fire name reason)).events
    rw [work]
    split <;> rfl
  | .call _ (.relay key) reason =>
    exact (s.events_ringing ..).trans (s.events_work_relay key reason).symm
  | .expire key => exact (s.events_ringing ..).trans (s.events_work_relay key .timedOut).symm
  | .perform (.subscribe name label) =>
    show [s.noteSubscription name label].flatMap Note.events =
      (s.work (.perform (.subscribe name label))).events
    rw [noteSubscription, work]
    cases s.reason? name with
    | some reason => rfl
    | none => cases s.has name <;> rfl
  | .call _ (.call _ _ _) _ | .perform (.abort _) | .perform (.clear _) | .perform (.count _)
  | .detach _ | .close _ => rfl

/-! ## Cascades -/

/-- An errand leaves fewer signals unfired, or as many and less to do. -/
theorem errand_less (e : Errand κ) (rest : List (Errand κ)) (s : Store κ) :
    Prod.Lex (· < ·) (Prod.Lex (· < ·) (· < ·))
      ((s.after e).unfired, weight (tasksOf (s.errands e ++ rest)), (s.errands e ++ rest).length)
      (s.unfired, weight (tasksOf (e :: rest)), (e :: rest).length) := by
  cases htask : e.task? with
  | none =>
    cases e with
    | close name => exact Prod.Lex.right _ (Prod.Lex.right _ (Nat.lt_succ_self _))
    | _ => cases htask
  | some task =>
    have hcons : tasksOf (e :: rest) = task :: tasksOf rest := List.filterMap_cons_some htask
    have hless := Prod.lex_def.1 (s.work_less task (tasksOf rest))
    rw [after, htask, tasksOf_append, tasksOf_errands, htask, hcons]
    refine Prod.lex_def.2 (hless.imp_right fun ⟨hunfired, hweight⟩ => ?_)
    exact ⟨hunfired, Prod.Lex.left _ _ hweight⟩

/-- The notes of a cascade. -/
def chronicle (errands : List (Errand κ)) (s : Store κ) : List (Note κ) :=
  match errands with
  | [] => []
  | e :: rest => s.notes e ++ chronicle (s.errands e ++ rest) (s.after e)
termination_by (s.unfired, weight (tasksOf errands), errands.length)
decreasing_by exact errand_less e rest s

/-- The cascade goes on after an errand with its consequences. -/
theorem run_errand (e : Errand κ) (rest : List (Errand κ)) (s : Store κ) :
    s.run (tasksOf (e :: rest)) =
      (((s.after e).run (tasksOf (s.errands e ++ rest))).1,
        (s.notes e).flatMap Note.events ++
          ((s.after e).run (tasksOf (s.errands e ++ rest))).2) := by
  rw [events_notes, tasksOf_append, tasksOf_errands, after]
  cases htask : e.task? with
  | none => rw [tasksOf, List.filterMap_cons_none htask]; rfl
  | some task => rw [tasksOf, List.filterMap_cons_some htask, run_cons]; rfl

/-- The notes of a cascade tell what it reports. -/
theorem events_chronicle (errands : List (Errand κ)) (s : Store κ) :
    (s.run (tasksOf errands)).2 = (s.chronicle errands).flatMap Note.events := by
  fun_induction chronicle errands s with
  | case1 s => rw [tasksOf, List.filterMap_nil, run]; rfl
  | case2 s e rest ih => rw [run_errand, List.flatMap_append, ih]

/-! ## Timers -/

/-- The notes while timers fire one after the other. -/
def expireAllNotes : List κ → Store κ → List (Note κ)
  | [], _ => []
  | key :: rest, s =>
    (if s.hasTimer key then s.chronicle [.expire key] else []) ++
      expireAllNotes rest (s.expire key).1

/-- The notes while the clock moves. -/
def advanceNotes (s : Store κ) (d : Duration) : List (Note κ) :=
  let s := { s with now := s.now + d.nanoseconds }
  expireAllNotes s.due s

theorem events_expireAllNotes (keys : List κ) (s : Store κ) :
    (expireAll keys s).2 = (expireAllNotes keys s).flatMap Note.events := by
  induction keys generalizing s with
  | nil => rfl
  | cons key keys ih =>
    have hexpire : (s.expire key).2 =
        (if s.hasTimer key then s.chronicle [.expire key] else []).flatMap Note.events := by
      rw [expire]
      split
      · exact events_chronicle [.expire key] s
      · rfl
    rw [expireAllNotes, List.flatMap_append, ← hexpire, ← ih]
    rfl

/-! ## Invariants -/

/-- What is kept by every errand of a cascade, with the errands that remain and the notes that have
been taken, when a timer fires and when the clock moves. -/
structure Telling (P : List (Errand κ) → List (Note κ) → Store κ → Prop) : Prop where
  errand : ∀ e rest notes s, P (e :: rest) notes s →
    P (s.errands e ++ rest) (notes ++ s.notes e) (s.after e)
  expire : ∀ key notes s, P [] notes s → P [.expire key] notes s
  clock : ∀ now notes s, P [] notes s → P [] notes { s with now }

namespace Telling

variable {P : List (Errand κ) → List (Note κ) → Store κ → Prop} (hP : Telling P)
  {notes : List (Note κ)} {s : Store κ}
include hP

protected theorem run {errands : List (Errand κ)} (h : P errands notes s) :
    P [] (notes ++ s.chronicle errands) (s.run (tasksOf errands)).1 := by
  fun_induction chronicle errands s generalizing notes with
  | case1 s =>
    rw [tasksOf, List.filterMap_nil, run, List.append_nil]
    exact h
  | case2 s e rest ih =>
    rw [run_errand, ← List.append_assoc]
    exact ih (hP.errand e rest notes s h)

protected theorem expireAll (h : P [] notes s) (keys : List κ) :
    P [] (notes ++ expireAllNotes keys s) (expireAll keys s).1 := by
  induction keys generalizing notes s with
  | nil => rwa [expireAllNotes, List.append_nil]
  | cons key keys ih =>
    have hexpire : P [] (notes ++ if s.hasTimer key then s.chronicle [.expire key] else [])
        (s.expire key).1 := by
      rw [Store.expire]
      split
      · exact hP.run (hP.expire key notes s h)
      · rwa [List.append_nil]
    rw [expireAllNotes, ← List.append_assoc]
    exact ih hexpire

protected theorem advance (h : P [] notes s) (d : Duration) :
    P [] (notes ++ s.advanceNotes d) (s.advance d).1 :=
  hP.expireAll (hP.clock _ notes s h) _

end Telling

end Store

/-! ## Steps -/

namespace Scenario

/-- What is noted in a step. -/
def notesOf (s : Scenario) : Step → List (Note Nat)
  | .subscribe signal label effects =>
    match s.store.reason? signal with
    | some reason => .late signal label reason false :: s.store.chronicle (effects.map .perform)
    | none =>
      if s.store.has signal then [.attached signal (s.store.issued signal) label false] else []
  | .unsubscribe label =>
    match (s.subscriptions.lookup label).join with
    | some (signal, number) =>
      if (s.store.unsubscribe signal number).2 then [.removed signal number] else []
    | none => []
  | .abort controller => s.store.chronicle [.fire (.controller controller) .aborted]
  | .advance time => s.store.advanceNotes time
  | .compose sources timeout hasClock =>
    match s.store.compose? hasClock s.merged.length sources timeout with
    | .ok store =>
      -- It fires at once if one of its sources has fired.
      match store.reason? (.merged s.merged.length) with
      | some reason => [.fired (.merged s.merged.length) reason, .closed (.merged s.merged.length)]
      | none => []
    | .error _ => []
  | .newController | .clear _ | .drop _ | .wait _ _ | .poll _ => []

/-- What is noted in steps one after the other. -/
def notes : Scenario → List Step → List (Note Nat)
  | _, [] => []
  | s, step :: steps => s.notesOf step ++ notes (s.step step).1 steps

/-- What is noted when signals are merged. -/
theorem notesOf_compose (s : Scenario) (sources : List (Name Nat)) (timeout : Option Duration)
    (hasClock : Bool) :
    s.notesOf (.compose sources timeout hasClock) =
      if (s.store.deadline? timeout).isSome && !hasClock then []
      else
        match (s.store.compose s.merged.length sources timeout).reason?
            (.merged s.merged.length) with
        | some reason =>
          [.fired (.merged s.merged.length) reason, .closed (.merged s.merged.length)]
        | none => [] := by
  rw [notesOf, Store.compose?]
  cases (s.store.deadline? timeout).isSome && !hasClock <;> rfl

theorem events_notesOf (s : Scenario) (step : Step) :
    (s.step step).2.2 = (s.notesOf step).flatMap Note.events := by
  cases step with
  | subscribe signal label effects =>
    rw [notesOf]
    cases hreason : s.store.reason? signal with
    | some reason =>
      have hrun := s.store.events_chronicle (effects.map .perform)
      rw [tasksOf_map_perform] at hrun
      simp only [Scenario.step, Store.subscribe, hreason]
      rw [Store.run_cons, List.flatMap_cons, ← hrun]
      simp [Store.work, Note.events]
    | none =>
      simp only [Scenario.step, Store.subscribe, hreason]
      split <;> rfl
  | unsubscribe label =>
    have hquiet : (s.step (.unsubscribe label)).2.2 = [] := s.events_step (.unsubscribe label)
    rw [hquiet, notesOf]
    split
    · split <;> rfl
    · rfl
  | abort controller => exact s.store.events_chronicle [.fire (.controller controller) .aborted]
  | advance time => exact Store.events_expireAllNotes _ _
  | compose sources timeout hasClock =>
    have hquiet : (s.step (.compose sources timeout hasClock)).2.2 = [] :=
      s.events_step (.compose sources timeout hasClock)
    rw [hquiet, notesOf]
    split
    · split <;> rfl
    · rfl
  | poll label => exact s.events_step (.poll label)
  | newController | clear | drop | wait => rfl

/-- What is noted in steps tells what is reported. -/
theorem events_notes (s : Scenario) (steps : List Step) :
    s.events steps = (s.notes steps).flatMap Note.events := by
  induction steps generalizing s with
  | nil => rfl
  | cons step steps ih => rw [events, notes, List.flatMap_append, ← events_notesOf, ih]

end Scenario

end DaemonRpc.Signal

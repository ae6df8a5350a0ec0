import DaemonRpc.Signal.Store

/-!
# Firing signals

A signal that fires calls its listeners in order. A relay fires the merged signal behind it and
then detaches it; a call reports its label and has its effects. `Store.run` works through a list of
such tasks, the consequences of a task before the tasks that follow it, and lists what is reported.
It ends because a signal fires only once: each step leaves fewer signals unfired, or as many and
less work to do.
-/

namespace DaemonRpc.Signal

/-- Something to be done while signals fire. -/
inductive Task (κ : Type) where
  /-- Fire a signal unless it has fired. -/
  | fire (signal : Name κ) (reason : AbortReason)
  /-- Call a listener. -/
  | deliver (listener : Listener κ) (reason : AbortReason)
  /-- Have an effect. -/
  | perform (effect : Effect κ)
  /-- Detach a merged signal that fired. -/
  | detach (key : κ)
  deriving DecidableEq, Repr

/-- What is reported while signals fire. -/
inductive Event (κ : Type) where
  /-- A listener was called. -/
  | called (label : String) (reason : AbortReason)
  /-- A listener counted the listeners of a signal. -/
  | counted (signal : Name κ) (count : Nat)
  /-- A listener subscribed another; says whether that is waiting. -/
  | subscribed (signal : Name κ) (waiting : Bool)
  deriving DecidableEq, Repr

/-- How much work a task is, apart from firing. -/
def Task.weight {κ : Type} : Task κ → Nat
  | .fire _ _ => 1
  | .deliver (.relay _) _ => 3
  | .deliver (.call _ _ effects) _ => 2 * effects.length + 1
  | .perform _ => 2
  | .detach _ => 1

/-- How much work tasks are, apart from firing. -/
def weight {κ : Type} : List (Task κ) → Nat
  | [] => 0
  | task :: rest => task.weight + weight rest

/-- The work of two lists of tasks. -/
theorem weight_append {κ : Type} (a b : List (Task κ)) : weight (a ++ b) = weight a + weight b := by
  induction a with
  | nil => simp [weight]
  | cons task rest ih => simp only [List.cons_append, weight, ih]; omega

/-- Call listeners in order. -/
def deliverAll {κ : Type} (listeners : List (Listener κ)) (reason : AbortReason) :
    List (Task κ) :=
  listeners.map (.deliver · reason)

/-- Have effects in order. -/
def performAll {κ : Type} (effects : List (Effect κ)) : List (Task κ) := effects.map .perform

/-- The work of effects. -/
theorem weight_performAll {κ : Type} (effects : List (Effect κ)) :
    weight (performAll effects) = 2 * effects.length := by
  induction effects with
  | nil => rfl
  | cons effect effects ih =>
    simp only [performAll, weight, List.map_cons, List.length_cons] at ih ⊢
    simp only [ih, Task.weight]
    omega

namespace Store

variable {κ : Type} [DecidableEq κ]

/-- Report something before what follows. -/
def reporting (event : Event κ) (outcome : Store κ × List (Event κ)) :
    Store κ × List (Event κ) :=
  (outcome.1, event :: outcome.2)

/-- Work through tasks; returns what was reported. -/
def run (tasks : List (Task κ)) (s : Store κ) : Store κ × List (Event κ) :=
  match tasks with
  | [] => (s, [])
  | .fire name reason :: rest =>
    match he : s.state? name with
    | none => run rest s
    | some e =>
      if hr : e.reason = none then
        -- All listeners are taken at once; what is attached from now on is not called.
        have := unfired_markFired reason he hr
        run (deliverAll e.listeners reason ++ rest) (s.markFired name reason)
      else run rest s
  | .deliver (.relay key) reason :: rest =>
    if (s.reason? (.merged key)).isSome then run rest s
    -- The listeners of the merged signal are called before it lets go of its other sources.
    else run (.fire (.merged key) reason :: .detach key :: rest) s
  | .deliver (.call _ label effects) reason :: rest =>
    reporting (.called label reason) (run (performAll effects ++ rest) s)
  | .perform (.abort n) :: rest => run (.fire (.controller n) .aborted :: rest) s
  | .perform (.clear key) :: rest => run rest (s.clear key)
  | .perform (.count name) :: rest =>
    reporting (.counted name (s.listenerCount name)) (run rest s)
  | .perform (.subscribe name label) :: rest =>
    match s.reason? name with
    | some reason =>
      reporting (.called label reason) (reporting (.subscribed name false) (run rest s))
    | none => reporting (.subscribed name true) (run rest (s.attach name label []))
  | .detach key :: rest => run rest (s.detach key)
termination_by (s.unfired, weight tasks)
decreasing_by
  · exact Prod.Lex.right _ (by simp [weight, Task.weight])
  · exact Prod.Lex.left _ _ this
  · exact Prod.Lex.right _ (by simp [weight, Task.weight])
  · exact Prod.Lex.right _ (by simp [weight, Task.weight])
  · exact Prod.Lex.right _ (by simp only [weight, Task.weight]; omega)
  · refine Prod.Lex.right _ ?_
    rw [weight_append, weight_performAll]
    simp only [weight, Task.weight]
    omega
  · exact Prod.Lex.right _ (by simp [weight, Task.weight])
  · rw [unfired_clear]
    exact Prod.Lex.right _ (by simp [weight, Task.weight])
  · exact Prod.Lex.right _ (by simp [weight, Task.weight])
  · exact Prod.Lex.right _ (by simp [weight, Task.weight])
  · rw [unfired_attach]
    exact Prod.Lex.right _ (by simp [weight, Task.weight])
  · rw [unfired_detach]
    exact Prod.Lex.right _ (by simp [weight, Task.weight])

/-- Abort a controller. -/
def abort (s : Store κ) (controller : Nat) : Store κ × List (Event κ) :=
  s.run [.fire (.controller controller) .aborted]

/-- Subscribe a listener. It gets a number, or is called at once if the signal has fired. -/
def subscribe (s : Store κ) (name : Name κ) (label : String) (effects : List (Effect κ)) :
    Store κ × Option Nat × List (Event κ) :=
  match s.reason? name with
  | some reason =>
    let (s, events) := s.run [.deliver (.call 0 label effects) reason]
    (s, none, events)
  | none => (s.attach name label effects, (s.state? name).map (·.issued), [])

end Store

end DaemonRpc.Signal

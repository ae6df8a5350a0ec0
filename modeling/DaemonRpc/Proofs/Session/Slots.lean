import DaemonRpc.Session

/-!
# The slots of a session

What a step leaves as it was. A step names at most one slot; every other slot keeps its call, and
the slot of the step goes from one call to the next only when something is started in it.

* `slot_settle`, `slot_renew`, `slot_compose` give every slot after a basic change;
* `slot_step_of_ne` is the frame rule for a whole step.
-/

namespace DaemonRpc

/-- The slot that a step names. -/
def SessionStep.slot? : SessionStep → Option String
  | .call name _ _ _ _ | .command name _ _ _ | .loose name _ | .poll name | .openBody name _
  | .read name _ | .next name | .drain name | .drop name => some name
  | .abort _ | .advance _ => none

namespace Session

theorem lookup_putSlot (name other : String) (slot : Slot) (slots : List (String × Slot)) :
    (putSlot name slot slots).lookup other =
      if other = name then some slot else slots.lookup other := by
  induction slots with
  | nil => by_cases h : other = name <;> simp [putSlot, h]
  | cons entry rest ih =>
    obtain ⟨n, old⟩ := entry
    by_cases hn : n = name
    · subst hn
      by_cases ho : other = n
      · simp [putSlot, ho]
      · have hb : (other == n) = false := by simp [ho]
        simp [putSlot, List.lookup_cons, hb, ho]
    · by_cases ho : other = n
      · subst ho
        simp [putSlot, hn]
      · have hb : (other == n) = false := by simp [ho]
        simp only [putSlot, hn, if_false, List.lookup_cons, hb, ih]

/-- The slots after something else was put into one. -/
theorem slot_settle (s : Session) (name other : String) (activity : Option Activity)
    (released : Nat) :
    (s.settle name activity released).slot other =
      if other = name then { s.slot name with activity } else s.slot other := by
  simp only [slot, settle, lookup_putSlot]
  split <;> rfl

@[simp]
theorem slot_settle_self (s : Session) (name : String) (activity : Option Activity)
    (released : Nat) :
    (s.settle name activity released).slot name = { s.slot name with activity } := by
  rw [slot_settle, if_pos rfl]

/-- Preparing a slot for another call drops what it held. -/
theorem slot_renew (s : Session) (name other : String) :
    (s.renew name).slot other =
      if other = name then ⟨(s.slot name).serial + 1, none⟩ else s.slot other := by
  -- The slot is put a second time, with the next number.
  have h : (s.renew name).slot other =
      if other = name then ⟨((s.drop name).slot name).serial + 1, none⟩
      else (s.drop name).slot other := by
    simp only [renew, slot, lookup_putSlot]
    split <;> rfl
  rw [h]
  split
  · rw [drop, slot_settle_self]
  · next hne => rw [drop, slot_settle, if_neg hne]

@[simp]
theorem slot_compose (s : Session) (name : String) (controller : Option Nat)
    (timeout : Option Duration) (other : String) :
    (s.compose name controller timeout).slot other = s.slot other := rfl

section

variable (s : Session) (name : String) (command : Command) (resource : Except Error Resource)
  (options : RequestOptions) (goal : Goal) (transport : Transport)

theorem step_call :
    (s.step (.call name resource options goal transport)).1 =
      (s.call name resource options goal transport).1 := rfl

theorem answer_call :
    (s.step (.call name resource options goal transport)).2.1 =
      (s.call name resource options goal transport).2.1 := rfl

/-- A command is a call of its path. -/
theorem step_command :
    s.step (.command name command options transport) =
      s.step (.call name (.ok (.path command.path))
        { command.options options with method := some "POST" } command.goal transport) := rfl

end

theorem slot_call_of_ne (s : Session) {name other : String} (h : other ≠ name)
    (resource : Except Error Resource) (options : RequestOptions) (goal : Goal)
    (transport : Transport) :
    (s.call name resource options goal transport).1.slot other = s.slot other := by
  simp only [call]
  split
  · rw [slot_renew, if_neg h]
  · simp only [take]
    rw [slot_settle, if_neg h, slot_compose, slot_renew, if_neg h]

theorem slot_openLoose_of_ne (s : Session) {name other : String} (h : other ≠ name)
    (body : LooseBody) : (s.openLoose name body).1.slot other = s.slot other := by
  simp only [openLoose]
  rw [slot_settle, if_neg h]
  split
  · rw [slot_renew, if_neg h]
  · rw [slot_compose, slot_renew, if_neg h]

theorem slot_ask_of_ne {α : Type} (s : Session) {name other : String} (h : other ≠ name)
    (question : Stream → Option AbortReason → α × Stream) (answer : α → SessionAnswer) :
    (s.ask name question answer).1.slot other = s.slot other := by
  simp only [ask]
  split
  · rw [slot_settle, if_neg h]
  · rfl

/-- A step changes no slot but the one that it names. -/
theorem slot_step_of_ne (s : Session) {step : SessionStep} {other : String}
    (h : step.slot? ≠ some other) : (s.step step).1.slot other = s.slot other := by
  have hne : ∀ {name}, step.slot? = some name → other ≠ name := by
    rintro name hname rfl
    exact h hname
  cases step with
  | call name resource options goal transport => exact slot_call_of_ne s (hne rfl) ..
  | command name command options transport =>
    rw [step_command, step_call]
    exact slot_call_of_ne s (hne rfl) ..
  | loose name body => exact slot_openLoose_of_ne s (hne rfl) body
  | next name => exact slot_ask_of_ne s (hne rfl) Stream.poll .item
  | drain name => exact slot_ask_of_ne s (hne rfl) Stream.drain .items
  | drop name => exact (slot_settle s name other _ _).trans (if_neg (hne rfl))
  | abort controller | advance time => rfl
  | poll name | openBody name kind | read name form =>
    -- These look at the slot first, and change it or nothing.
    simp only [step]
    split
    all_goals first | rfl | exact (slot_settle s name other _ _).trans (if_neg (hne rfl))

end Session

end DaemonRpc

import DaemonRpc.Proofs.Signal.Simulation

/-!
# Which merged signals wait

In a ledger that is kept from the beginning, a merged signal that was not cleared has fired exactly
if its controller was aborted or its deadline has passed (`Ledger.Truthful`). So the listeners of a
controller can be counted without looking at what fired (`Truthful.listenerCount`).
-/

namespace DaemonRpc.Signal

variable {κ : Type}

/-- The deadline has passed. -/
def Ticket.hasElapsed (t : Ticket κ) (now : Nat) : Bool := t.deadline.any (· ≤ now)

theorem Ticket.hasElapsed_mono {t : Ticket κ} {a b : Nat} (hab : a ≤ b)
    (h : t.hasElapsed a = true) : t.hasElapsed b = true := by
  obtain ⟨deadline, hsome, hle⟩ := (Option.any_eq_true _ _).1 h
  refine (Option.any_eq_true _ _).2 ⟨deadline, hsome, ?_⟩
  exact decide_eq_true (Nat.le_trans (of_decide_eq_true hle) hab)

variable [DecidableEq κ]

namespace Ledger

variable {l : Ledger κ}

/-- The controller is there and aborted. -/
def isAborted (l : Ledger κ) (c : Nat) : Bool := decide (c < l.controllers) && l.aborted c

/-- The signal should have fired, unless it was cleared before. -/
def isDue (l : Ledger κ) (t : Ticket κ) : Bool :=
  t.controller.any l.isAborted || t.hasElapsed l.now

/-- The signals that were not cleared have fired if they are due, and only then. -/
def Truthful (l : Ledger κ) : Prop :=
  ∀ r ∈ l.records, r.cleared = false → r.reason.isSome = l.isDue r.ticket

/-- A new signal is due if its controller is aborted already. -/
theorem Truthful.issue (h : l.Truthful) {t : Ticket κ} (ht : t.hasElapsed l.now = false) :
    (l.issue t).Truthful := by
  intro r hr hcleared
  rcases List.mem_append.1 hr with hr | hr
  · exact h r hr hcleared
  · obtain rfl := List.mem_singleton.1 hr
    -- The store and the ledger agree on which controllers have fired.
    have hreason : ∀ c, (l.store.reason? (.controller c)).isSome = l.isAborted c := by
      intro c
      by_cases hc : c < l.controllers <;> by_cases ha : l.aborted c = true <;>
        simp [reason?_controller, isAborted, reason?, hc, ha]
    have hdue : (l.issue t).isDue t = t.controller.any l.isAborted := by
      rw [isDue]
      show (_ || t.hasElapsed l.now) = _
      rw [ht, Bool.or_false]
      rfl
    show (t.controller.bind _).isSome = (l.issue t).isDue t
    rw [hdue]
    cases t.controller with
    | none => rfl
    | some c => exact hreason c

theorem Truthful.clear (h : l.Truthful) (key : κ) : (l.clear key).Truthful := by
  intro r hr hcleared
  obtain ⟨r', hr', rfl⟩ := List.mem_map.1 hr
  by_cases hkey : r'.ticket.key = key
  · simp [hkey, Record.clear] at hcleared
  · simp only [hkey, if_false] at hcleared ⊢
    exact h r' hr' hcleared

omit [DecidableEq κ] in
theorem isDue_mark {c : Nat} (hc : c < l.controllers) (t : Ticket κ) :
    (l.mark c).isDue t = (t.controller == some c || l.isDue t) := by
  have haborted : ∀ d, (l.mark c).isAborted d = (d == c || l.isAborted d) := by
    intro d
    by_cases hd : d = c
    · simp [isAborted, mark, hd, hc]
    · simp only [isAborted, mark, beq_false_of_ne hd, Bool.false_or]
      rfl
  have hany : t.controller.any (l.mark c).isAborted =
      (t.controller == some c || t.controller.any l.isAborted) := by
    cases t.controller with
    | none => rfl
    | some d => exact haborted d
  rw [isDue, hany, isDue, Bool.or_assoc]
  rfl

omit [DecidableEq κ] in
/-- Aborting a controller fires the signals that are due now. -/
theorem Truthful.abort (h : l.Truthful) (c : Nat) : (l.abort c).Truthful := by
  unfold Ledger.abort
  split
  · next hc =>
    intro r hr hcleared
    obtain ⟨r', hr', rfl⟩ := List.mem_map.1 hr
    show _ = (l.mark c).isDue _
    rw [isDue_mark hc.1]
    -- A record that follows the controller fires now; for the others being due does not change.
    by_cases hfollows : r'.follows c = true
    · obtain ⟨-, hcontroller⟩ := Bool.and_eq_true_iff.1 hfollows
      simp only [hfollows, if_true]
      rw [show (r'.fire .aborted).ticket = r'.ticket from rfl, hcontroller, Bool.true_or]
      cases hreason : r'.reason <;> simp [Record.fire, hreason]
    · simp only [hfollows, if_false, Bool.false_eq_true] at hcleared ⊢
      have hr' := h r' hr' hcleared
      rw [← hr']
      cases hreason : r'.reason with
      | some reason => simp
      | none => simpa [Record.follows, Record.isPending, hreason, hcleared] using hfollows
  · exact h

omit [DecidableEq κ] in
/-- Moving the clock fires the signals that are due now. -/
theorem Truthful.advance (h : l.Truthful) (d : Duration) : (l.advance d).Truthful := by
  intro r hr hcleared
  obtain ⟨r', hr', rfl⟩ := List.mem_map.1 hr
  have hdue : (l.advance d).isDue r'.ticket = (r'.ticket.controller.any l.isAborted ||
      r'.ticket.hasElapsed (l.now + d.nanoseconds)) := rfl
  -- A record that is overdue fires now. Another one that is due now was due before, or has fired.
  by_cases hoverdue : r'.isOverdue (l.now + d.nanoseconds) = true
  · obtain ⟨-, helapsed⟩ := Bool.and_eq_true_iff.1 hoverdue
    simp only [hoverdue, if_true]
    rw [show (r'.fire .timedOut).ticket = r'.ticket from rfl, hdue, Ticket.hasElapsed, helapsed,
      Bool.or_true]
    cases hreason : r'.reason <;> simp [Record.fire, hreason]
  · simp only [hoverdue, if_false, Bool.false_eq_true] at hcleared ⊢
    have hbefore := h r' hr' hcleared
    rw [hdue, hbefore, isDue]
    by_cases helapsed : r'.ticket.hasElapsed (l.now + d.nanoseconds) = true
    · have hreason : r'.reason.isSome = true := by
        rw [Option.isSome_iff_ne_none]
        rintro hnone
        refine hoverdue (Bool.and_eq_true_iff.2 ⟨?_, helapsed⟩)
        simp [Record.isPending, hnone, hcleared]
      rw [helapsed, Bool.or_true, ← isDue, ← hbefore, hreason]
    · have hnow : ¬ r'.ticket.hasElapsed l.now = true :=
        mt (Ticket.hasElapsed_mono (Nat.le_add_right _ _)) helapsed
      simp only [Bool.not_eq_true] at helapsed hnow
      rw [helapsed, hnow]

/-! ## Signals only fire -/

omit [DecidableEq κ] in
theorem records_abort (l : Ledger κ) (c : Nat) :
    (l.abort c).records.map (fun r => (r.ticket, r.cleared)) =
      l.records.map fun r => (r.ticket, r.cleared) := by
  unfold Ledger.abort
  split
  · rw [List.map_map]
    apply List.map_congr_left
    intro r _
    simp only [Function.comp]
    split <;> rfl
  · rfl

omit [DecidableEq κ] in
theorem records_advance (l : Ledger κ) (d : Duration) :
    (l.advance d).records.map (fun r => (r.ticket, r.cleared)) =
      l.records.map fun r => (r.ticket, r.cleared) := by
  rw [Ledger.advance, List.map_map]
  apply List.map_congr_left
  intro r _
  simp only [Function.comp]
  split <;> rfl

/-! ## Counting listeners -/

/-- A controller that is not aborted has a listener for each signal that follows it, was not cleared
and whose deadline has not passed. -/
theorem Truthful.listenerCount (h : l.Truthful) {c : Nat} (hc : c < l.controllers) :
    l.store.listenerCount (.controller c) =
      if l.aborted c then 0
      else l.records.countP fun r =>
        !r.cleared && r.ticket.controller == some c && !r.ticket.hasElapsed l.now := by
  rw [Store.listenerCount, state?_controller, if_pos hc]
  simp only [Option.map_some, Option.getD_some, entry, relays]
  split
  · rfl
  · next ha =>
    rw [List.length_map, ← List.countP_eq_length_filter]
    apply List.countP_congr
    intro r hr
    rw [Bool.eq_iff_iff.symm]
    -- A relay is there for each record that waits; `Truthful` says which of them those are.
    cases hcleared : r.cleared with
    | true => simp [Record.follows, Record.isPending, hcleared]
    | false =>
      by_cases hcontroller : r.ticket.controller = some c
      · have hdue := h r hr hcleared
        simp only [isDue, hcontroller, Option.any_some, isAborted, ha, Bool.and_false,
          Bool.false_or] at hdue
        simp [Record.follows, Record.isPending, hcontroller, hcleared, ← hdue]
      · simp [Record.follows, beq_false_of_ne hcontroller]

/-! ## When all signals are cleared -/

/-- Nothing is attached to any signal once all merged signals are cleared. -/
theorem Distinct.listenerCount_of_cleared (h : l.Distinct)
    (hcleared : ∀ r ∈ l.records, r.cleared = true) (signal : Name κ) :
    l.store.listenerCount signal = 0 := by
  cases signal with
  | controller c =>
    have hrelays : l.relays c = [] := by
      have hnone : l.records.filter (·.follows c) = [] := by
        apply List.filter_eq_nil_iff.2
        intro r hr
        simp [Record.follows, Record.isPending, hcleared r hr]
      simp [relays, hnone]
    rw [Store.listenerCount, state?_controller]
    split
    · simp [entry, hrelays]
    · rfl
  | merged key =>
    rw [Store.listenerCount]
    by_cases hkey : key ∈ l.records.map (·.ticket.key)
    · obtain ⟨r, hr, rfl⟩ := List.mem_map.1 hkey
      rw [h.state?_merged hr]
      rfl
    · rw [state?_merged_of_not_mem hkey]
      rfl

/-- No timer runs once all merged signals are cleared. -/
theorem Distinct.hasTimer_of_cleared (h : l.Distinct)
    (hcleared : ∀ r ∈ l.records, r.cleared = true) (key : κ) : l.store.hasTimer key = false := by
  rw [Store.hasTimer]
  by_cases hkey : key ∈ l.records.map (·.ticket.key)
  · obtain ⟨r, hr, rfl⟩ := List.mem_map.1 hkey
    rw [h.merge? hr]
    simp [Record.merge, Record.isPending, hcleared r hr]
  · have hnone : l.store.merge? key = none := lookup_map_of_not_mem hkey
    rw [hnone]
    rfl

end Ledger

end DaemonRpc.Signal

import DaemonRpc.Proofs.Session.Audit

/-!
# The accounts of a session

What a session owes after any run, in terms of the signals that were given out and the bodies that
were handed over during it: no listener and no body outlives its call, and no body is let go of
twice. `Session.Accounts` lists the promises; `Session.accounts_runSteps` says that every run of a
new session keeps them.
-/

namespace DaemonRpc.Session

open Signal

/-- What a session owes, for the controllers that there are, the steps so far, the signals that were
given to calls and the bodies that were handed over to them. -/
structure Accounts (n : Nat) (steps : List SessionStep) (tickets : List (Ticket CallKey))
    (arrivals : List Arrival) (s : Session) : Prop where
  /-- A controller has a listener for each ongoing call that was given its signal and whose own
  timeout has not elapsed, but none if it was aborted. -/
  listeners : ∀ c < n, s.store.listenerCount (.controller c) =
    if steps.any (·.aborts c) then 0
    else tickets.countP fun t =>
      t.controller == some c && s.isOngoing t.key && !t.hasElapsed s.store.now
  /-- A call is given one signal. -/
  distinct : (tickets.map (·.key)).Nodup
  /-- A call is handed one body. -/
  once : (arrivals.map Prod.fst).Nodup
  /-- A call has the body that was handed over to it while it goes on, and not after. -/
  held : ∀ a ∈ arrivals, s.held? a.1 = if s.isOngoing a.1 then some a.2.tracked else none
  /-- A call has no body that was not handed over to it. -/
  handed : ∀ key, (s.held? key).isSome = true → key ∈ arrivals.map Prod.fst
  /-- All bodies were let go of, except those for which something is held and whose calls go on. -/
  released : s.released = arrivals.countP fun a => !a.isHeld s.isOngoing
  /-- A step lets go of the bodies whose calls come to an end in it, and of no others. -/
  step : ∀ step, (s.step step).1.released = s.released +
    (arrivals.countP fun a => a.isHeld s.isOngoing && !a.isHeld (s.step step).1.isOngoing) +
    (s.arrival? step).toList.countP fun a => !a.isHeld (s.step step).1.isOngoing
  /-- A call that is over stays so. -/
  stays : ∀ step, ∀ key ∈ tickets.map (·.key) ++ arrivals.map Prod.fst,
    s.isOngoing key = false → (s.step step).1.isOngoing key = false
  /-- A step ends no calls of other slots; an abort and a move of the clock end none. -/
  others : ∀ step key, step.slot? ≠ some key.1 →
    (s.step step).1.isOngoing key = s.isOngoing key
  /-- A call is over when it is dropped. -/
  dropped : ∀ step name, step.drops? = some name → (s.step step).1.isOngoing (s.key name) = false
  /-- A call is over when it has failed or has its result, or when the reading of its body answers
  an error or the end. -/
  final : ∀ step name, step.slot? = some name →
    (s.step step).2.1.isFinal ((s.slot name).activity.any (·.isTyped)) = true →
    (s.step step).1.isOngoing ((s.step step).1.key name) = false
  /-- A call whose controller was aborted, or whose timeout has elapsed, is over after the next step
  that looks for its answer or at its body. -/
  prompt : ∀ t ∈ tickets,
    (t.controller.any (fun c => decide (c < n) && steps.any (·.aborts c)) ||
      t.hasElapsed s.store.now) = true →
    ∀ step, s.looks? step = some t.key.1 → (s.step step).1.isOngoing t.key = false
  /-- When no call goes on, nothing is attached, no timer runs and nothing is held. -/
  quiet : (∀ name, (s.slot name).activity.any (·.isOngoing) = false) →
    (∀ signal, s.store.listenerCount signal = 0) ∧ (∀ key, s.store.hasTimer key = false) ∧
      s.released = arrivals.length ∧ ∀ key, s.held? key = none

namespace Audited

variable {n : Nat} {aborted : Nat → Bool} {tickets : List (Ticket CallKey)}
  {arrivals : List Arrival} {s : Session}

/-- A step ends no calls of other slots. -/
theorem isOngoing_step_of_ne (s : Session) {step : SessionStep} {key : CallKey}
    (h : step.slot? ≠ some key.1) : (s.step step).1.isOngoing key = s.isOngoing key := by
  rw [isOngoing, slot_step_of_ne s h]
  rfl

/-- A controller has a listener for each live call that follows it. -/
theorem listenerCount (h : Audited n aborted tickets arrivals s) {c : Nat} (hc : c < n) :
    s.store.listenerCount (.controller c) =
      if aborted c then 0
      else tickets.countP fun t =>
        t.controller == some c && s.isLive t.key && !t.hasElapsed s.store.now := by
  obtain ⟨l, hstore, hn, haborted, htickets, hbalanced⟩ := h.books
  have hnow : s.store.now = l.now := congrArg Store.now hstore
  rw [hstore, hbalanced.truthful.listenerCount (hn ▸ hc), haborted c hc, ← htickets,
    List.countP_map]
  refine if_congr Iff.rfl rfl (List.countP_congr fun r hr => ?_)
  -- The signals that are not cleared are those of live calls.
  rw [hbalanced.cleared r hr, Bool.not_not, Bool.and_comm (s.isLive _)]
  rfl

/-- The signal of a live call has fired if its controller was aborted or its timeout has elapsed,
and only then. -/
theorem fired_eq (h : Audited n aborted tickets arrivals s) {t : Ticket CallKey} (ht : t ∈ tickets)
    (hlive : s.isLive t.key = true) :
    (s.fired t.key.1).isSome =
      (t.controller.any (fun c => decide (c < n) && aborted c) ||
        t.hasElapsed s.store.now) := by
  obtain ⟨l, hstore, hn, haborted, htickets, hbalanced⟩ := h.books
  obtain ⟨r, hr, rfl⟩ := List.mem_map.1 (htickets ▸ ht)
  -- A live call is the one in its slot, so the slot asks for its signal.
  have hkey : s.key r.ticket.key.1 = r.ticket.key := by
    have hserial := (Bool.and_eq_true_iff.1 hlive).1
    exact Prod.ext rfl (eq_of_beq hserial)
  have hcleared : r.cleared = false := by rw [hbalanced.cleared r hr, hlive]; rfl
  have hcontroller : l.isAborted = fun c => decide (c < n) && aborted c := by
    ext c : 1
    rw [Ledger.isAborted, hn]
    by_cases hc : c < n
    · rw [haborted c hc]
    · simp [hc]
  rw [fired, hkey, hstore, hbalanced.distinct.reason?_merged hr,
    hbalanced.truthful r hr hcleared, Ledger.isDue, hcontroller]
  rfl

/-- A live call has the body that was handed over to it. -/
theorem held_eq (h : Audited n aborted tickets arrivals s) {a : Arrival} (ha : a ∈ arrivals) :
    s.held? a.1 = if s.isLive a.1 then some a.2.tracked else none := by
  obtain ⟨l, -, -, -, -, hbalanced⟩ := h.books
  cases hlive : s.isLive a.1 with
  | true => exact hbalanced.arrived a.1 a.2 ha hlive
  | false => exact hbalanced.held_of_not_live hlive

/-- All bodies were let go of but those that live calls hold. -/
theorem released_eq (h : Audited n aborted tickets arrivals s) :
    s.released = arrivals.countP fun a => !a.isHeld s.isLive := by
  obtain ⟨l, -, -, -, -, hbalanced⟩ := h.books
  have hbooks := hbalanced.released
  rw [arrivals.length_eq_countP_add_countP (Arrival.isHeld s.isLive), Nat.add_comm] at hbooks
  simpa using Nat.add_left_cancel hbooks

/-- A call that is over stays so. -/
theorem over_step (h : Audited n aborted tickets arrivals s) {key : CallKey}
    (hkey : key ∈ tickets.map (·.key) ++ arrivals.map Prod.fst) (hover : s.isLive key = false)
    (step : SessionStep) : (s.step step).1.isLive key = false := by
  -- The key was given out, so no later call gets it.
  have hserial : key.2 ≤ (s.slot key.1).serial := by
    rcases List.mem_append.1 hkey with hkey | hkey
    · obtain ⟨t, ht, rfl⟩ := List.mem_map.1 hkey
      exact h.issued t ht
    · obtain ⟨a, ha, rfl⟩ := List.mem_map.1 hkey
      exact h.arrived a ha
  rw [← Bool.not_eq_true] at hover ⊢
  exact mt (isLive_of_step h.sound hserial) hover

/-- What is counted once it stops being so. -/
theorem countP_not_add {α : Type} {before after : α → Bool} {l : List α}
    (h : ∀ a ∈ l, before a = false → after a = false) :
    (l.countP fun a => !before a) + (l.countP fun a => before a && !after a) =
      l.countP fun a => !after a := by
  induction l with
  | nil => rfl
  | cons a l ih =>
    obtain ⟨ha, hl⟩ := List.forall_mem_cons.1 h
    have hrest := ih hl
    simp only [List.countP_cons]
    -- What stopped before counts on the left already; the rest counts there if it stops now.
    cases hbefore : before a with
    | true =>
      simp only [Bool.not_true, Bool.false_eq_true, if_false, Bool.true_and]
      omega
    | false =>
      simp only [ha hbefore, Bool.not_false, if_true, Bool.false_and, Bool.false_eq_true, if_false]
      omega

/-- A step lets go of the bodies whose calls it ends. -/
theorem released_step (h : Audited n aborted tickets arrivals s) (step : SessionStep) :
    (s.step step).1.released = s.released +
      (arrivals.countP fun a => a.isHeld s.isLive && !a.isHeld (s.step step).1.isLive) +
      (s.arrival? step).toList.countP fun a => !a.isHeld (s.step step).1.isLive := by
  -- A body that was let go of is not held again.
  have hover : ∀ a ∈ arrivals, a.isHeld s.isLive = false →
      a.isHeld (s.step step).1.isLive = false := by
    intro a ha hnot
    cases htracked : a.2.tracked with
    | false => simp [Arrival.isHeld, htracked]
    | true =>
      rw [Arrival.isHeld, htracked, Bool.true_and] at hnot ⊢
      exact h.over_step (List.mem_append_right _ (List.mem_map.2 ⟨a, ha, rfl⟩)) hnot step
  rw [(h.step step).released_eq, List.countP_append, h.released_eq, countP_not_add hover]

/-- A call whose controller was aborted, or whose timeout has elapsed, is over after the next step
that looks for its answer or at its body. -/
theorem over_of_due (h : Audited n aborted tickets arrivals s) {t : Ticket CallKey}
    (ht : t ∈ tickets) (hdue : (t.controller.any (fun c => decide (c < n) && aborted c) ||
      t.hasElapsed s.store.now) = true) {step : SessionStep}
    (hlooks : s.looks? step = some t.key.1) : (s.step step).1.isLive t.key = false := by
  cases hlive : s.isLive t.key with
  | false =>
    exact h.over_step (List.mem_append_left _ (List.mem_map.2 ⟨t, ht, rfl⟩)) hlive step
  | true =>
    have hkey : s.key t.key.1 = t.key :=
      Prod.ext rfl (eq_of_beq (Bool.and_eq_true_iff.1 hlive).1)
    rw [← h.fired_eq ht hlive] at hdue
    rw [← hkey]
    exact over_of_looks h.sound hdue hlooks

/-- When no call is live, nothing is attached, no timer runs and nothing is held. -/
theorem quiet (h : Audited n aborted tickets arrivals s) (hover : ∀ key, s.isLive key = false) :
    (∀ signal, s.store.listenerCount signal = 0) ∧ (∀ key, s.store.hasTimer key = false) ∧
      s.released = arrivals.length ∧ ∀ key, s.held? key = none := by
  have hreleased := h.released_eq
  obtain ⟨l, hstore, -, -, -, hbalanced⟩ := h.books
  have hcleared : ∀ r ∈ l.records, r.cleared = true := by
    intro r hr
    rw [hbalanced.cleared r hr, hover]
    rfl
  rw [hstore]
  refine ⟨hbalanced.distinct.listenerCount_of_cleared hcleared,
    hbalanced.distinct.hasTimer_of_cleared hcleared, ?_,
    fun key => hbalanced.held_of_not_live (hover key)⟩
  rw [hreleased, List.countP_eq_length]
  intro a _
  simp [Arrival.isHeld, hover]

/-- A session that keeps balanced books keeps its promises. -/
theorem accounts {steps : List SessionStep}
    (h : Audited n (fun c => steps.any (·.aborts c)) tickets arrivals s) :
    Accounts n steps tickets arrivals s := by
  have hnow : s.isOngoing = s.isLive := h.sound.isOngoing_eq
  have hnext : ∀ step, (s.step step).1.isOngoing = (s.step step).1.isLive := fun step =>
    (h.step step).sound.isOngoing_eq
  -- The promises speak of ongoing calls; by soundness these are the live ones.
  exact {
    listeners := fun c hc => by
      rw [hnow]
      exact h.listenerCount hc
    distinct := by
      obtain ⟨l, -, -, -, htickets, hbalanced⟩ := h.books
      rw [← htickets, List.map_map]
      exact hbalanced.distinct
    once := by
      obtain ⟨l, -, -, -, -, hbalanced⟩ := h.books
      exact hbalanced.once
    held := fun a ha => by
      rw [hnow]
      exact h.held_eq ha
    handed := fun key hkey => by
      obtain ⟨l, -, -, -, -, hbalanced⟩ := h.books
      exact (hbalanced.holds key hkey).2
    released := by
      rw [hnow]
      exact h.released_eq
    step := fun step => by
      rw [hnow, hnext]
      exact h.released_step step
    stays := fun step key hkey hover => by
      rw [hnext]
      rw [hnow] at hover
      exact h.over_step hkey hover step
    others := fun step key hne => isOngoing_step_of_ne s hne
    dropped := fun step name hdrops => by
      rw [hnext]
      exact over_of_drops hdrops
    final := fun step name hslot hfinal => by
      rw [hnext]
      exact over_of_isFinal h.sound hslot hfinal
    prompt := fun t ht hdue step hlooks => by
      rw [hnext]
      exact h.over_of_due ht hdue hlooks
    quiet := fun hover => by
      refine h.quiet fun key => ?_
      rw [← hnow, isOngoing, hover, Bool.and_false] }

end Audited

/-- After any run of a new session, in which any number of calls may go on at once, share
controllers and be dropped at any point: a controller has a listener exactly for each ongoing call
that follows it and whose timeout has not elapsed; every body is let go of once, in the step in
which its call comes to an end; and nothing is left when no call goes on. -/
theorem accounts_runSteps (config : ClientConfig) (requestId : String) (n : Nat)
    (steps : List SessionStep) :
    let s := start config requestId n
    Accounts n steps (history ticket? s steps) (history arrival? s steps) (s.runSteps steps) := by
  intro s
  have haudited := (audited_start config requestId n).runSteps steps
  simp only [Bool.false_or, List.nil_append] at haudited
  exact haudited.accounts

end DaemonRpc.Session

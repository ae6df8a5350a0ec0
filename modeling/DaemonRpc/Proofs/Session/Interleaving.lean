import DaemonRpc.Proofs.Session.Independence
import Mathlib.Algebra.GroupWithZero.Nat

/-!
# Calls do not depend on each other

What the calls in a slot show (`Session.Showing`) depends on the steps that concern the slot
(`SessionStep.concerns`): those that name it, aborts and moves of the clock. The steps of other
slots may be left out (`SameFor.shows_filter`). So runs that have the same steps for each slot show
the same for each slot, however these are interleaved, and end alike (`Session.Alike`).
-/

namespace DaemonRpc

open Signal

/-- The step is about the calls in a slot: it names the slot, or it is an abort or a move of the
clock. -/
def SessionStep.concerns (name : String) (step : SessionStep) : Bool := step.slot?.all (· == name)

/-- A step that does not concern a slot is about another one. -/
theorem SessionStep.exists_slot_of_not_concerns {step : SessionStep} {name : String}
    (h : ¬ step.concerns name = true) : ∃ other, step.slot? = some other ∧ name ≠ other := by
  cases hslot : step.slot? with
  | none => simp [concerns, hslot] at h
  | some other => exact ⟨other, rfl, fun heq => h (by simp [concerns, hslot, heq])⟩

namespace Session

variable {n : Nat} {name other : String} {i j : Nat} {s t u : Session}

/-! ## Aborts and the clock -/

/-- What an abort or a move of the clock does to the books. -/
def onLedger : SessionStep → Ledger CallKey → Ledger CallKey
  | .abort c, l => l.abort c
  | .advance d, l => l.advance d
  | _, l => l

theorem store_onLedger {l : Ledger CallKey} (hstore : s.store = l.store) (hdistinct : l.Distinct)
    {step : SessionStep} (hslot : step.slot? = none) :
    (s.step step).1.store = (onLedger step l).store := by
  cases step with
  | abort c =>
    rw [onLedger, ← hdistinct.store_abort, ← hstore]
    rfl
  | advance d =>
    rw [onLedger, ← hdistinct.store_advance, ← hstore]
    rfl
  | _ => cases hslot

theorem shown?_onLedger {l m : Ledger CallKey} {key : CallKey} (h : l.shown? key = m.shown? key)
    (hcontrollers : l.controllers = m.controllers)
    (haborted : ∀ c < l.controllers, l.aborted c = m.aborted c) (hnow : l.now = m.now)
    (step : SessionStep) : (onLedger step l).shown? key = (onLedger step m).shown? key := by
  cases step with
  | abort c => exact Ledger.shown?_abort h hcontrollers (haborted c)
  | advance d => exact Ledger.shown?_advance h hnow d
  | _ => exact h

namespace SameFor

/-- The controllers that were aborted in one session were aborted in the other. -/
theorem aborted_eq (h : SameFor name i j s t) {aborted aborted' : Nat → Bool}
    {tickets tickets' : List (Ticket CallKey)} {arrivals arrivals' : List Arrival}
    (hs : s.Audited n aborted tickets arrivals) (ht : t.Audited n aborted' tickets' arrivals')
    {c : Nat} (hc : c < n) : aborted c = aborted' c := by
  have hcontroller := h.controller c
  rw [hs.reason?_controller, ht.reason?_controller] at hcontroller
  cases hs : aborted c <;> cases ht : aborted' c <;> simp_all

/-- An abort or a move of the clock. -/
theorem step_global (h : SameFor name i j s t) (hs : s.Booked n) (ht : t.Booked n)
    {step : SessionStep} (hslot : step.slot? = none) :
    (s.step step).2 = (t.step step).2 ∧ SameFor name i j (s.step step).1 (t.step step).1 := by
  obtain ⟨aborted, tickets, arrivals, hs⟩ := hs
  obtain ⟨aborted', tickets', arrivals', ht⟩ := ht
  obtain ⟨l, hl, hln, hlaborted, -, hlbalanced⟩ := hs.books
  obtain ⟨m, hm, hmn, hmaborted, -, hmbalanced⟩ := ht.books
  -- The books agree on the controllers, the clock and the signals of the slot.
  have hbooks : ∀ serial, l.shown? (name, serial) = m.shown? (name, serial) := fun serial =>
    Ledger.shown?_eq_iff.2 (by rw [← hl, ← hm]; exact ⟨h.reason serial, h.merge serial⟩)
  have haborted : ∀ c < l.controllers, l.aborted c = m.aborted c := by
    intro c hc
    rw [hln] at hc
    rw [hlaborted c hc, hmaborted c hc, h.aborted_eq hs ht hc]
  have hnow : l.now = m.now := by
    have hnow := h.now
    rwa [hl, hm] at hnow
  have hafter : ∀ serial, (s.step step).1.store.reason? (.merged (name, serial)) =
      (t.step step).1.store.reason? (.merged (name, serial)) ∧
        (s.step step).1.store.merge? (name, serial) =
          (t.step step).1.store.merge? (name, serial) := by
    intro serial
    rw [store_onLedger hl hlbalanced.distinct hslot, store_onLedger hm hmbalanced.distinct hslot]
    exact Ledger.shown?_eq_iff.1
      (shown?_onLedger (hbooks serial) (hln.trans hmn.symm) haborted hnow step)
  have hcontroller : ∀ c, (s.step step).1.store.reason? (.controller c) =
      (t.step step).1.store.reason? (.controller c) := by
    intro c
    rw [(hs.step step).reason?_controller, (ht.step step).reason?_controller]
    by_cases hc : c < n
    · rw [h.aborted_eq hs ht hc]
    · simp [hc]
  have hnowAfter : (s.step step).1.store.now = (t.step step).1.store.now := by
    cases step with
    | abort c => exact (hs.now_abort c).trans (h.now.trans (ht.now_abort c).symm)
    | advance d => rw [hs.now_advance, ht.now_advance, h.now]
    | _ => cases hslot
  cases step with
  | abort c | advance d =>
    exact ⟨rfl, { h with now := hnowAfter, controller := hcontroller,
                         reason := fun serial => (hafter serial).1,
                         merge := fun serial => (hafter serial).2 }⟩
  | _ => cases hslot

/-- A step that is about the calls in the slot. -/
theorem step (h : SameFor name i j s t) (hs : s.Booked n) (ht : t.Booked n) {step : SessionStep}
    (hconcerns : step.concerns name = true) :
    (s.step step).2 = (t.step step).2 ∧ SameFor name i j (s.step step).1 (t.step step).1 := by
  cases hslot : step.slot? with
  | none => exact h.step_global hs ht hslot
  | some other =>
    have hname : other = name := by simpa [SessionStep.concerns, hslot] using hconcerns
    exact h.step_self hs ht (hname ▸ hslot)

end SameFor

/-- Two sessions that are the same for all slots. -/
def Same (s t : Session) : Prop := ∀ name, ∃ i j, SameFor name i j s t

/-! ## What a run shows -/

/-- What a step shows of the call that it is about. -/
structure Showing where
  /-- The slot that the step names. -/
  slot : Option String
  /-- What became of the call. -/
  answer : SessionAnswer
  /-- What was sent. -/
  sent : Option Outgoing
  /-- How the reading of the stream in the slot has ended. -/
  termination : Option Termination
  /-- How many bodies were let go of. -/
  released : Nat

/-- What a step shows. -/
def showing (s : Session) (step : SessionStep) : Showing where
  slot := step.slot?
  answer := (s.step step).2.1
  sent := (s.step step).2.2
  termination := step.slot?.bind (s.step step).1.termination
  released := (s.step step).1.released - s.released

/-- What the steps of a run show. -/
def shows : Session → List SessionStep → List Showing
  | _, [] => []
  | s, step :: more => s.showing step :: shows (s.step step).1 more

/-- It is about the calls in a slot, or it was an abort or a move of the clock. -/
def Showing.concerns (name : String) (showing : Showing) : Bool :=
  showing.slot.all (· == name)

/-- Every step concerns some slot. -/
theorem exists_concerns (slot : Option String) : ∃ name, slot.all (· == name) = true := by
  cases slot with
  | none => exact ⟨"", rfl⟩
  | some name => exact ⟨name, by simp⟩

theorem SameFor.showing_eq (h : SameFor name i j s t) (hs : s.Booked n) (ht : t.Booked n)
    {step : SessionStep} (hconcerns : step.concerns name = true) :
    s.showing step = t.showing step := by
  obtain ⟨hanswer, hafter⟩ := h.step hs ht hconcerns
  have htermination : step.slot?.bind (s.step step).1.termination =
      step.slot?.bind (t.step step).1.termination := by
    cases hslot : step.slot? with
    | none => rfl
    | some other =>
      have hname : other = name := by simpa [SessionStep.concerns, hslot] using hconcerns
      exact hname ▸ hafter.termination
  have hreleased : (s.step step).1.released - s.released =
      (t.step step).1.released - t.released := by
    have := h.released
    have := hafter.released
    omega
  rw [showing, hanswer, htermination, hreleased, showing]

/-- What a run shows of the calls in a slot is what the steps that are about them show by
themselves. -/
theorem SameFor.shows_filter (h : SameFor name i j s t) (hs : s.Booked n) (ht : t.Booked n)
    (steps : List SessionStep) :
    (s.shows steps).filter (·.concerns name) = t.shows (steps.filter (·.concerns name)) ∧
      ∃ i j, SameFor name i j (s.runSteps steps)
        (t.runSteps (steps.filter (·.concerns name))) := by
  induction steps generalizing s t i j with
  | nil => exact ⟨rfl, i, j, h⟩
  | cons step more ih =>
    have hkeep : (s.showing step).concerns name = step.concerns name := rfl
    cases hconcerns : step.concerns name with
    | true =>
      obtain ⟨-, hafter⟩ := h.step hs ht hconcerns
      obtain ⟨hshows, hrun⟩ := ih hafter (hs.step step) (ht.step step)
      rw [List.filter_cons_of_pos (by simpa using hconcerns), shows,
        List.filter_cons_of_pos (by rw [hkeep, hconcerns]), hshows, shows,
        h.showing_eq hs ht hconcerns]
      exact ⟨rfl, hrun⟩
    | false =>
      -- The step of another slot is not seen.
      obtain ⟨other, hslot, hne⟩ := step.exists_slot_of_not_concerns (Bool.eq_false_iff.1 hconcerns)
      obtain ⟨i', j', hunseen⟩ := s.exists_sameFor_step hslot hne
      obtain ⟨hshows, hrun⟩ := ih (hunseen.symm.trans h) (hs.step step) ht
      rw [List.filter_cons_of_neg (by simpa using hconcerns), shows,
        List.filter_cons_of_neg (by rw [hkeep, hconcerns]; simp)]
      exact ⟨hshows, hrun⟩

/-- A step does to both sessions what keeps them the same. -/
theorem Same.step (h : Same s t) (hs : s.Booked n) (ht : t.Booked n) (step : SessionStep) :
    Same (s.step step).1 (t.step step).1 := by
  intro name
  obtain ⟨i, j, hname⟩ := h name
  by_cases hconcerns : step.concerns name = true
  · exact ⟨i, j, (hname.step hs ht hconcerns).2⟩
  · obtain ⟨other, hslot, hne⟩ := step.exists_slot_of_not_concerns hconcerns
    obtain ⟨_, _, hs'⟩ := s.exists_sameFor_step hslot hne
    obtain ⟨_, _, ht'⟩ := t.exists_sameFor_step hslot hne
    exact ⟨_, _, (hs'.symm.trans hname).trans ht'⟩

/-- Sessions that are the same show the same in whatever comes later. -/
theorem Same.shows_eq (h : Same s t) (hs : s.Booked n) (ht : t.Booked n)
    (later : List SessionStep) : s.shows later = t.shows later := by
  induction later generalizing s t with
  | nil => rfl
  | cons step more ih =>
    obtain ⟨name, hconcerns⟩ := exists_concerns step.slot?
    obtain ⟨i, j, hname⟩ := h name
    rw [shows, shows, hname.showing_eq hs ht hconcerns,
      ih (h.step hs ht step) (hs.step step) (ht.step step)]

/-! ## Interleavings -/

/-- Runs with the same steps for each slot show the same for each slot and come to sessions that are
the same for all slots. -/
theorem same_runSteps (hs : s.Booked n) {first second : List SessionStep}
    (h : ∀ name, first.filter (·.concerns name) = second.filter (·.concerns name)) :
    (∀ name, (s.shows first).filter (·.concerns name) = (s.shows second).filter (·.concerns name)) ∧
      Same (s.runSteps first) (s.runSteps second) := by
  refine ⟨fun name => ?_, fun name => ?_⟩
  · rw [((SameFor.refl name s).shows_filter hs hs first).1, h name,
      ((SameFor.refl name s).shows_filter hs hs second).1]
  · obtain ⟨_, _, hfirst⟩ := ((SameFor.refl name s).shows_filter hs hs first).2
    obtain ⟨_, _, hsecond⟩ := ((SameFor.refl name s).shows_filter hs hs second).2
    rw [h name] at hfirst
    exact ⟨_, _, hfirst.trans hsecond.symm⟩

/-- Lists that agree on what each item is one of are permutations of each other. -/
theorem perm_of_filter {α : Type} {l m : List α}
    (h : ∀ a, ∃ p : α → Bool, p a = true ∧ l.filter p = m.filter p) : l.Perm m := by
  classical
  rw [List.perm_iff_count]
  intro a
  obtain ⟨p, hp, heq⟩ := h a
  rw [← List.count_filter hp, heq, List.count_filter hp]

theorem released_le_step (s : Session) (step : SessionStep) :
    s.released ≤ (s.step step).1.released := by
  cases hslot : step.slot? with
  | none =>
    cases step with
    | abort c | advance time => exact Nat.le_refl _
    | _ => cases hslot
  | some name =>
    refine step_induction (P := fun t => s.released ≤ t.released) ?_ ?_ ?_ hslot (Nat.le_refl _)
    · exact fun t activity released h => Nat.le_trans h (Nat.le_add_right _ _)
    · exact fun t h => Nat.le_trans h (Nat.le_add_right _ _)
    · exact fun t controller timeout h => h

/-- All bodies that are let go of in a run show in it. -/
theorem released_runSteps (s : Session) (steps : List SessionStep) :
    (s.runSteps steps).released = s.released + ((s.shows steps).map (·.released)).sum := by
  induction steps generalizing s with
  | nil => rfl
  | cons step more ih =>
    have hle := s.released_le_step step
    have hrest : ((s.step step).1.runSteps more).released = _ := ih (s.step step).1
    rw [shows, List.map_cons, List.sum_cons]
    show ((s.step step).1.runSteps more).released = _
    rw [hrest, showing]
    dsimp only
    omega

/-- Sessions that nobody can tell apart: the order in which signals are attached to a controller
does not count. -/
structure Alike (s t : Session) : Prop where
  config : s.config = t.config
  requestId : s.requestId = t.requestId
  slot : ∀ name, s.slot name = t.slot name
  released : s.released = t.released
  now : s.store.now = t.store.now
  reason? : ∀ signal, s.store.reason? signal = t.store.reason? signal
  merge? : ∀ key, s.store.merge? key = t.store.merge? key
  listeners : ∀ signal, (s.store.listeners signal).Perm (t.store.listeners signal)

theorem Same.perm_listeners (h : Same s t) (hs : s.Booked n) (ht : t.Booked n)
    (signal : Name CallKey) : (s.store.listeners signal).Perm (t.store.listeners signal) := by
  obtain ⟨aborted, tickets, arrivals, hs⟩ := hs
  obtain ⟨aborted', tickets', arrivals', ht⟩ := ht
  obtain ⟨l, hl, hln, hlaborted, -, hlbalanced⟩ := hs.books
  obtain ⟨m, hm, hmn, hmaborted, -, hmbalanced⟩ := ht.books
  rw [hl, hm]
  cases signal with
  | merged key => rw [l.listeners_merged, m.listeners_merged]
  | controller c =>
    rw [l.listeners_controller, m.listeners_controller, hln, hmn]
    by_cases hc : c < n
    · obtain ⟨_, _, hany⟩ := h ""
      rw [if_pos hc, if_pos hc]
      refine hlbalanced.distinct.perm_relays hmbalanced.distinct (fun key => ?_) ?_
      · obtain ⟨_, _, hname⟩ := h key.1
        have hreason := hname.reason key.2
        have hmerge := hname.merge key.2
        rw [hl, hm] at hreason hmerge
        exact Ledger.shown?_eq_iff.2 ⟨hreason, hmerge⟩
      · rw [hlaborted c hc, hmaborted c hc, hany.aborted_eq hs ht hc]
    · rw [if_neg hc, if_neg hc]

theorem Same.alike (h : Same s t) (hs : s.Booked n) (ht : t.Booked n)
    (hreleased : s.released = t.released) : Alike s t := by
  obtain ⟨_, _, hany⟩ := h ""
  refine ⟨hany.config, hany.requestId, fun name => ?_, hreleased, hany.now, fun signal => ?_,
    fun key => ?_, h.perm_listeners hs ht⟩
  · obtain ⟨_, _, hname⟩ := h name
    exact hname.slot
  · cases signal with
    | controller c => exact hany.controller c
    | merged key =>
      obtain ⟨_, _, hname⟩ := h key.1
      exact hname.reason key.2
  · obtain ⟨_, _, hname⟩ := h key.1
    exact hname.merge key.2

theorem Same.alike_runSteps (hs : s.Booked n) {first second : List SessionStep}
    (h : ∀ name, first.filter (·.concerns name) = second.filter (·.concerns name)) :
    Alike (s.runSteps first) (s.runSteps second) := by
  obtain ⟨hshows, hsame⟩ := same_runSteps hs h
  refine hsame.alike (hs.runSteps first) (hs.runSteps second) ?_
  -- What was let go of shows in the steps, which are the same up to their order.
  have hperm : (s.shows first).Perm (s.shows second) := perm_of_filter fun showing => by
    obtain ⟨name, hname⟩ := exists_concerns showing.slot
    exact ⟨(·.concerns name), hname, hshows name⟩
  rw [released_runSteps, released_runSteps, (hperm.map _).sum_nat]

/-- Calls do not depend on each other. In any session, two steps that name different slots show the
same in either order, and come to sessions that nobody can tell apart. So do any two runs that have
the same steps for each slot, with aborts and moves of the clock in the same places among them: they
show the same for each slot, and whatever comes later shows the same after both. -/
theorem independent_of_order (config : ClientConfig) (requestId : String) (n : Nat)
    (before : List SessionStep) :
    let s := (start config requestId n).runSteps before
    (∀ {a b step step'}, step.slot? = some a → step'.slot? = some b → a ≠ b →
      (s.step step').1.showing step = s.showing step ∧
        (s.step step).1.showing step' = s.showing step' ∧
          Alike (s.runSteps [step, step']) (s.runSteps [step', step])) ∧
      ∀ {first second : List SessionStep},
        (∀ name, first.filter (·.concerns name) = second.filter (·.concerns name)) →
          (∀ name, (s.shows first).filter (·.concerns name) =
            (s.shows second).filter (·.concerns name)) ∧
          Alike (s.runSteps first) (s.runSteps second) ∧
            ∀ later, (s.runSteps first).shows later = (s.runSteps second).shows later := by
  intro s
  have hs : s.Booked n := (booked_start config requestId n).runSteps before
  refine ⟨fun {a b step step'} ha hb hne => ?_, fun {first second} h => ?_⟩
  · have hconcerns : ∀ {name other : String} {step : SessionStep}, step.slot? = some name →
        (step.concerns other = true ↔ name = other) := by
      intro name other step hslot
      simp [SessionStep.concerns, hslot]
    obtain ⟨_, _, hstep⟩ := s.exists_sameFor_step ha hne.symm
    obtain ⟨_, _, hstep'⟩ := s.exists_sameFor_step hb hne
    refine ⟨hstep'.symm.showing_eq (hs.step step') hs ((hconcerns ha).2 rfl),
      hstep.symm.showing_eq (hs.step step) hs ((hconcerns hb).2 rfl), ?_⟩
    apply Same.alike_runSteps hs
    intro name
    by_cases hname : a = name
    · have hother : b ≠ name := fun h => hne (hname.trans h.symm)
      simp [hconcerns ha, hconcerns hb, hname, hother]
    · simp [List.filter_cons, hconcerns ha, hconcerns hb, hname]
  · obtain ⟨hshows, hsame⟩ := same_runSteps hs h
    exact ⟨hshows, Same.alike_runSteps hs h,
      hsame.shows_eq (hs.runSteps first) (hs.runSteps second)⟩

/-- Two calls with controllers of their own, of which one is aborted. -/
theorem independent_of_two_calls :
    let spec := fun controller : Nat => (
      { method := "POST", url := { scheme := ['u'], path := .segments [] }, headers := {}
        body := .empty, timeout := some ⟨5⟩, signal := some controller, transform := none
        hook := none, throwHttpErrors := true } : RequestSpec)
    let reply : Reply := ⟨1, .ok (500, {}, none, ⟨.native, [.frame (.data [98]), .pause], true⟩)⟩
    let call := fun name controller =>
      SessionStep.call name (.ok (.prebuilt (spec controller))) {} .response reply
    let s := start .standard "id" 2
    let first := [call "a" 0, call "b" 1, .abort 0, .poll "a", .poll "b", .advance ⟨9⟩, .poll "b"]
    let second := [call "b" 1, call "a" 0, .abort 0, .poll "b", .poll "a", .advance ⟨9⟩, .poll "b"]
    (∀ name, first.filter (·.concerns name) = second.filter (·.concerns name)) ∧
      (∀ name, (s.shows first).filter (·.concerns name) =
        (s.shows second).filter (·.concerns name)) ∧
        Alike (s.runSteps first) (s.runSteps second) := by
  intro spec reply call s first second
  have hsame : ∀ name, first.filter (·.concerns name) = second.filter (·.concerns name) := by
    intro name
    by_cases ha : "a" = name
    · subst ha
      rfl
    · by_cases hb : "b" = name
      · subst hb
        rfl
      · simp [first, second, call, SessionStep.concerns, SessionStep.slot?, ha, hb]
  obtain ⟨hshows, halike, -⟩ := (independent_of_order .standard "id" 2 []).2 hsame
  exact ⟨hsame, hshows, halike⟩

end Session

end DaemonRpc

import DaemonRpc.Proofs.Session.Firing

/-!
# What the calls in one slot see of a session

The calls in a slot read the configuration, the clock, which controllers have fired, their own slot
and the signals under their own keys. Two sessions that agree on these are the same for the slot
(`Session.SameFor`), whatever else they hold:

* a step of another slot leaves a session the same for the slot (`Session.exists_sameFor_step`);
* a step of the slot has the same answer in both sessions and leaves them the same for the slot
  (`SameFor.step_self`).

What an abort and a move of the clock do to a signal depends on what the store shows of it
(`Ledger.shown?_abort`, `Ledger.shown?_advance`).
-/

namespace DaemonRpc

open Signal

namespace Signal.Ledger

variable {κ : Type} [DecidableEq κ] {l m : Ledger κ}

/-- The record of a merged signal. -/
def record? (l : Ledger κ) (key : κ) : Option (Record κ) :=
  l.records.find? fun r => r.ticket.key = key

theorem lookup_map_record {α β : Type} [BEq α] [LawfulBEq α] (records : List (Record κ)) (key : κ)
    {name : κ → α} (hname : ∀ k, name key = name k ↔ k = key) (value : Record κ → β) :
    (records.map fun r => (name r.ticket.key, value r)).lookup (name key) =
      (records.find? fun r => r.ticket.key = key).map value := by
  induction records with
  | nil => rfl
  | cons r records ih =>
    by_cases hkey : r.ticket.key = key
    · simp [hkey]
    · have hne : (name key == name r.ticket.key) = false :=
        beq_false_of_ne fun h => hkey ((hname _).1 h)
      simp only [List.map_cons, List.lookup_cons, hne, List.find?_cons, hkey, decide_false]
      exact ih

theorem merge?_eq (l : Ledger κ) (key : κ) :
    l.store.merge? key = (l.record? key).map Record.merge :=
  lookup_map_record l.records key (fun _ => eq_comm) Record.merge

theorem state?_merged (l : Ledger κ) (key : κ) :
    l.store.state? (.merged key) = (l.record? key).map Record.entry := by
  have hcontrollers : l.controllerEntries.lookup (.merged key) = none :=
    lookup_map_of_not_mem (by simp)
  have hmerged : l.mergedEntries.lookup (.merged key) = (l.record? key).map Record.entry :=
    lookup_map_record l.records key (fun _ => by rw [Name.merged.injEq, eq_comm]) Record.entry
  rw [Store.state?, store, List.lookup_append, hcontrollers, Option.none_or, hmerged]

theorem reason?_eq (l : Ledger κ) (key : κ) :
    l.store.reason? (.merged key) = (l.record? key).bind Record.reason := by
  rw [Store.reason?, state?_merged, Option.bind_map]
  rfl

theorem listeners_merged (l : Ledger κ) (key : κ) : l.store.listeners (.merged key) = [] := by
  rw [Store.listeners, state?_merged]
  cases l.record? key <;> rfl

theorem listeners_controller (l : Ledger κ) (c : Nat) :
    l.store.listeners (.controller c) = if c < l.controllers then l.relays c else [] := by
  rw [Store.listeners, state?_controller]
  split <;> rfl

/-- The record of a merged signal is the one with its name. -/
theorem Distinct.record?_eq_some_iff (h : l.Distinct) {key : κ} {r : Record κ} :
    l.record? key = some r ↔ r ∈ l.records ∧ r.ticket.key = key := by
  constructor
  · intro hr
    exact ⟨List.mem_of_find?_eq_some hr, by simpa using List.find?_some hr⟩
  · rintro ⟨hr, rfl⟩
    cases hfound : l.record? r.ticket.key with
    | none =>
      rw [record?, List.find?_eq_none] at hfound
      simpa using hfound r hr
    | some r' =>
      have hkey : r'.ticket.key = r.ticket.key := by simpa using List.find?_some hfound
      rw [List.inj_on_of_nodup_map h (List.mem_of_find?_eq_some hfound) hr hkey]

theorem record?_map (l : Ledger κ) (key : κ) {f : Record κ → Record κ}
    (hf : ∀ r, (f r).ticket = r.ticket) :
    (l.records.map f).find? (fun r => r.ticket.key = key) = (l.record? key).map f := by
  rw [List.find?_map, record?]
  congr 2
  funext r
  rw [Function.comp, hf]

end Signal.Ledger

namespace Signal.Record

variable {κ : Type} {r r' : Record κ}

/-- What a store shows of a merged signal. -/
def shown (r : Record κ) : Option AbortReason × Merge κ := (r.reason, r.merge)

theorem shown_eq_iff : r.shown = r'.shown ↔ r.reason = r'.reason ∧ r.merge = r'.merge :=
  Prod.mk.injEq _ _ _ _ ▸ Iff.rfl

theorem isPending_congr (h : r.shown = r'.shown) : r.isPending = r'.isPending := by
  obtain ⟨hreason, hmerge⟩ := shown_eq_iff.1 h
  have hcleared : r.cleared = r'.cleared := congrArg Merge.cleared hmerge
  rw [isPending, hreason, hcleared, isPending]

/-- Which controller a signal follows shows in what it was made of. -/
theorem follows_congr (h : r.shown = r'.shown) (c : Nat) : r.follows c = r'.follows c := by
  obtain ⟨-, hmerge⟩ := shown_eq_iff.1 h
  have hsources : r.merge.sources = r'.merge.sources := congrArg Merge.sources hmerge
  have hcontroller : r.ticket.controller = r'.ticket.controller := by
    cases hr : r.ticket.controller <;> cases hr' : r'.ticket.controller <;>
      simp_all [merge]
  rw [follows, isPending_congr h, hcontroller, follows]

theorem isOverdue_congr (h : r.shown = r'.shown) (now : Nat) :
    r.isOverdue now = r'.isOverdue now := by
  rw [Bool.eq_iff_iff, isOverdue_iff, isOverdue_iff, (shown_eq_iff.1 h).2]

theorem shown_fire_congr (h : r.shown = r'.shown) (reason : AbortReason) :
    (r.fire reason).shown = (r'.fire reason).shown := by
  obtain ⟨hreason, hmerge⟩ := shown_eq_iff.1 h
  have hsources : r.merge.sources = r'.merge.sources := congrArg Merge.sources hmerge
  have hcleared : r.merge.cleared = r'.merge.cleared := congrArg Merge.cleared hmerge
  refine shown_eq_iff.2 ⟨congrArg (Option.or · (some reason)) hreason, ?_⟩
  simp only [merge, isPending_fire] at hsources hcleared ⊢
  simp [fire, hsources, hcleared]

/-- The change of a record depends on what a store shows of it. -/
def Respects (f : Record κ → Record κ) : Prop :=
  ∀ r r', r.shown = r'.shown → (f r).shown = (f r').shown

theorem respects_fire_ite {p : Record κ → Bool} (hp : ∀ r r', r.shown = r'.shown → p r = p r')
    (reason : AbortReason) : Respects fun r => if p r then r.fire reason else r := by
  intro r r' h
  dsimp only
  rw [hp r r' h]
  split
  · exact shown_fire_congr h reason
  · exact h

theorem Respects.map {f : Record κ → Record κ} (hf : Respects f) {o o' : Option (Record κ)}
    (h : o.map shown = o'.map shown) : (o.map f).map shown = (o'.map f).map shown := by
  cases o with
  | none => cases o' <;> simp_all
  | some r =>
    cases o' with
    | none => simp at h
    | some r' => exact congrArg some (hf r r' (Option.some.inj h))

end Signal.Record

namespace Signal.Ledger

variable {κ : Type} [DecidableEq κ] {l m : Ledger κ} {key : κ}

/-- What the store shows of a merged signal. -/
def shown? (l : Ledger κ) (key : κ) : Option (Option AbortReason × Merge κ) :=
  (l.record? key).map Record.shown

theorem shown?_eq_iff :
    l.shown? key = m.shown? key ↔
      l.store.reason? (.merged key) = m.store.reason? (.merged key) ∧
        l.store.merge? key = m.store.merge? key := by
  rw [reason?_eq, reason?_eq, merge?_eq, merge?_eq, shown?, shown?]
  cases l.record? key <;> cases m.record? key <;> simp [Record.shown_eq_iff]

/-- Aborting a controller does the same to signals that show the same. -/
theorem shown?_abort (h : l.shown? key = m.shown? key)
    (hcontrollers : l.controllers = m.controllers) {c : Nat}
    (haborted : c < l.controllers → l.aborted c = m.aborted c) :
    (l.abort c).shown? key = (m.abort c).shown? key := by
  have hfires : Record.Respects fun r : Record κ => if r.follows c then r.fire .aborted else r :=
    Record.respects_fire_ite (fun _ _ hshown => Record.follows_congr hshown c) .aborted
  have hcond : (c < l.controllers ∧ l.aborted c = false) ↔
      (c < m.controllers ∧ m.aborted c = false) := by
    rw [← hcontrollers]
    exact and_congr_right fun hc => by rw [haborted hc]
  have hticket : ∀ r : Record κ,
      (if r.follows c then r.fire .aborted else r).ticket = r.ticket := by
    intro r
    split <;> rfl
  by_cases hc : c < l.controllers ∧ l.aborted c = false
  · rw [abort, if_pos hc, abort, if_pos (hcond.1 hc)]
    simp only [shown?, record?]
    rw [record?_map l key hticket, record?_map m key hticket]
    exact hfires.map h
  · rw [abort, if_neg hc, abort, if_neg (mt hcond.2 hc)]
    exact h

/-- Moving the clock does the same to signals that show the same. -/
theorem shown?_advance (h : l.shown? key = m.shown? key) (hnow : l.now = m.now) (d : Duration) :
    (l.advance d).shown? key = (m.advance d).shown? key := by
  have hfires : Record.Respects fun r : Record κ =>
      if r.isOverdue (l.now + d.nanoseconds) then r.fire .timedOut else r :=
    Record.respects_fire_ite (fun _ _ hshown => Record.isOverdue_congr hshown _) .timedOut
  have hticket : ∀ r : Record κ, (if r.isOverdue (l.now + d.nanoseconds) then r.fire .timedOut
      else r).ticket = r.ticket := by
    intro r
    split <;> rfl
  simp only [shown?, record?, advance, ← hnow]
  rw [record?_map l key hticket, record?_map m key hticket]
  exact hfires.map h

theorem Distinct.mem_follow_iff (h : l.Distinct) (c : Nat) :
    key ∈ (l.records.filter (·.follows c)).map (·.ticket.key) ↔
      ∃ r, l.record? key = some r ∧ r.follows c = true := by
  simp only [List.mem_map, List.mem_filter, h.record?_eq_some_iff]
  constructor
  · rintro ⟨r, ⟨hr, hfollows⟩, hkey⟩
    exact ⟨r, ⟨hr, hkey⟩, hfollows⟩
  · rintro ⟨r, ⟨hr, hkey⟩, hfollows⟩
    exact ⟨r, ⟨hr, hfollows⟩, hkey⟩

/-- The same signals are attached to a controller if all signals show the same. -/
theorem Distinct.perm_relays (hl : l.Distinct) (hm : m.Distinct)
    (h : ∀ key, l.shown? key = m.shown? key) {c : Nat} (haborted : l.aborted c = m.aborted c) :
    (l.relays c).Perm (m.relays c) := by
  rw [relays, relays, haborted]
  split
  · exact .refl _
  -- No key occurs twice, so it is enough to compare which keys occur.
  have hkeys : ((l.records.filter (·.follows c)).map (·.ticket.key)).Perm
      ((m.records.filter (·.follows c)).map (·.ticket.key)) := by
    rw [List.perm_ext_iff_of_nodup (hl.sublist (List.filter_sublist.map _))
      (hm.sublist (List.filter_sublist.map _))]
    intro key
    have hkey := h key
    rw [hl.mem_follow_iff, hm.mem_follow_iff]
    rw [shown?, shown?] at hkey
    cases hr : l.record? key with
    | none =>
      rw [hr, Option.map_none, eq_comm, Option.map_eq_none_iff] at hkey
      simp [hkey]
    | some r =>
      rw [hr, Option.map_some, eq_comm, Option.map_eq_some_iff] at hkey
      obtain ⟨r', hr', hshown⟩ := hkey
      simp [hr', Record.follows_congr hshown c]
  have hrelays := hkeys.map Listener.relay
  rw [List.map_map, List.map_map] at hrelays
  exact hrelays

end Signal.Ledger

namespace Session

variable {n : Nat} {name other : String} {i j : Nat} {s t u : Session}

/-- The session keeps balanced books for so many controllers. -/
def Booked (n : Nat) (s : Session) : Prop :=
  ∃ aborted tickets arrivals, s.Audited n aborted tickets arrivals

theorem Booked.step (h : s.Booked n) (step : SessionStep) : (s.step step).1.Booked n := by
  obtain ⟨aborted, tickets, arrivals, haudited⟩ := h
  exact ⟨_, _, _, haudited.step step⟩

theorem Booked.runSteps (h : s.Booked n) (steps : List SessionStep) :
    (s.runSteps steps).Booked n := by
  obtain ⟨aborted, tickets, arrivals, haudited⟩ := h
  exact ⟨_, _, _, haudited.runSteps steps⟩

theorem booked_start (config : ClientConfig) (requestId : String) (n : Nat) :
    (start config requestId n).Booked n :=
  ⟨_, _, _, audited_start config requestId n⟩

/-- The sessions are the same for the calls in a slot, and let go of as many bodies since `i` and
`j` were let go of. -/
structure SameFor (name : String) (i j : Nat) (s t : Session) : Prop where
  config : s.config = t.config
  requestId : s.requestId = t.requestId
  slot : s.slot name = t.slot name
  now : s.store.now = t.store.now
  controller : ∀ c, s.store.reason? (.controller c) = t.store.reason? (.controller c)
  reason : ∀ serial,
    s.store.reason? (.merged (name, serial)) = t.store.reason? (.merged (name, serial))
  merge : ∀ serial, s.store.merge? (name, serial) = t.store.merge? (name, serial)
  released : s.released + j = t.released + i

namespace SameFor

theorem refl (name : String) (s : Session) : SameFor name 0 0 s s :=
  ⟨rfl, rfl, rfl, rfl, fun _ => rfl, fun _ => rfl, fun _ => rfl, rfl⟩

theorem symm (h : SameFor name i j s t) : SameFor name j i t s where
  config := h.config.symm
  requestId := h.requestId.symm
  slot := h.slot.symm
  now := h.now.symm
  controller c := (h.controller c).symm
  reason serial := (h.reason serial).symm
  merge serial := (h.merge serial).symm
  released := h.released.symm

theorem trans {i' j' : Nat} (hst : SameFor name i j s t) (htu : SameFor name i' j' t u) :
    SameFor name (i + i') (j + j') s u where
  config := hst.config.trans htu.config
  requestId := hst.requestId.trans htu.requestId
  slot := hst.slot.trans htu.slot
  now := hst.now.trans htu.now
  controller c := (hst.controller c).trans (htu.controller c)
  reason serial := (hst.reason serial).trans (htu.reason serial)
  merge serial := (hst.merge serial).trans (htu.merge serial)
  released := by
    have := hst.released
    have := htu.released
    omega

/-- The call in the slot has the same key. -/
theorem key (h : SameFor name i j s t) : s.key name = t.key name := by
  rw [Session.key, h.slot, Session.key]

theorem fired (h : SameFor name i j s t) : s.fired name = t.fired name := by
  rw [Session.fired, h.key]
  exact h.reason _

theorem termination (h : SameFor name i j s t) : s.termination name = t.termination name := by
  rw [Session.termination, h.slot, Session.termination]

end SameFor

/-! ## Steps of other slots -/

/-- A step of a slot puts things into it, prepares it for other calls and gives them signals. -/
theorem step_induction {P : Session → Prop} {name : String}
    (settle : ∀ t activity released, P t → P (t.settle name activity released))
    (renew : ∀ t, P t → P (t.renew name))
    (compose : ∀ t controller timeout, P t → P (t.compose name controller timeout))
    {step : SessionStep} (hslot : step.slot? = some name) (h : P s) : P (s.step step).1 := by
  have hcall : ∀ resource options goal transport,
      P (s.call name resource options goal transport).1 := by
    intro resource options goal transport
    simp only [Session.call]
    split
    · exact renew s h
    · exact settle _ _ _ (compose _ _ _ (renew s h))
  have hask : ∀ {α : Type} (question : Stream → Option AbortReason → α × Stream) answer,
      P (s.ask name question answer).1 := by
    intro α question answer
    rw [ask]
    split
    · exact settle _ _ _ h
    · exact h
  cases step with
  | call other resource options goal transport =>
    obtain rfl := Option.some.inj hslot
    exact hcall resource options goal transport
  | command other command options transport =>
    obtain rfl := Option.some.inj hslot
    rw [step_command, step_call]
    exact hcall ..
  | loose other body =>
    obtain rfl := Option.some.inj hslot
    simp only [Session.step, openLoose]
    refine settle _ _ _ ?_
    split
    · exact renew s h
    · exact compose _ _ _ (renew s h)
  | next other =>
    obtain rfl := Option.some.inj hslot
    exact hask Stream.poll .item
  | drain other =>
    obtain rfl := Option.some.inj hslot
    exact hask Stream.drain .items
  | drop other =>
    obtain rfl := Option.some.inj hslot
    exact settle s _ _ h
  | poll other | openBody other kind | read other form =>
    obtain rfl := Option.some.inj hslot
    simp only [Session.step]
    split
    all_goals first | exact h | exact settle s _ _ h
  | abort c | advance time => cases hslot

theorem merge?_settle (s : Session) (name : String) (activity : Option Activity) (released : Nat)
    (key : CallKey) :
    (s.settle name activity released).store.merge? key =
      if activity.any (·.isLive) = false ∧ key = s.key name then
        (s.store.merge? key).map ({ · with deadline := none, cleared := true })
      else s.store.merge? key := by
  simp only [settle]
  cases activity.any (·.isLive) with
  | true => simp
  | false =>
    simp only [Bool.false_eq_true, if_false, true_and]
    exact Store.merge?_clear s.store (s.key name) key

theorem sameFor_settle (s : Session) (hne : name ≠ other) (activity : Option Activity)
    (released : Nat) :
    SameFor name s.released (s.settle other activity released).released s
      (s.settle other activity released) where
  config := rfl
  requestId := rfl
  slot := by rw [slot_settle, if_neg hne]
  now := (now_settle s other activity released).symm
  controller _ := (reason?_settle s other activity released _).symm
  reason _ := (reason?_settle s other activity released _).symm
  merge serial := by
    rw [merge?_settle, if_neg]
    rintro ⟨-, hkey⟩
    exact hne (Prod.mk.inj hkey).1
  released := Nat.add_comm _ _

theorem sameFor_renew (s : Session) (hne : name ≠ other) :
    SameFor name s.released (s.renew other).released s (s.renew other) := by
  -- Besides what the drop does, only the other slot gets a number.
  have hdrop : SameFor name s.released (s.drop other).released s (s.drop other) :=
    sameFor_settle s hne _ _
  exact { hdrop with slot := by rw [slot_renew, if_neg hne] }

theorem sameFor_compose (s : Session) (hne : name ≠ other) (controller : Option Nat)
    (timeout : Option Duration) :
    SameFor name 0 0 s (s.compose other controller timeout) where
  config := rfl
  requestId := rfl
  slot := rfl
  now := (Store.now_compose _ _ _ _).symm
  controller c := (Store.reason?_compose_of_ne _ _ _ _ (by simp)).symm
  reason serial := by
    refine (Store.reason?_compose_of_ne _ _ _ _ ?_).symm
    rintro hkey
    exact hne (Prod.mk.inj (Name.merged.inj hkey)).1
  merge serial := by
    refine (Store.merge?_compose_of_ne _ ?_ _ _).symm
    rintro hkey
    exact hne (Prod.mk.inj hkey).1
  released := rfl

/-- A step of another slot leaves a session the same for the slot. -/
theorem exists_sameFor_step (s : Session) {step : SessionStep} (hslot : step.slot? = some other)
    (hne : name ≠ other) : ∃ i j, SameFor name i j s (s.step step).1 := by
  refine step_induction (P := fun t => ∃ i j, SameFor name i j s t) ?_ ?_ ?_ hslot
    ⟨0, 0, .refl name s⟩
  · rintro t activity released ⟨i, j, h⟩
    exact ⟨_, _, h.trans (sameFor_settle t hne activity released)⟩
  · rintro t ⟨i, j, h⟩
    exact ⟨_, _, h.trans (sameFor_renew t hne)⟩
  · rintro t controller timeout ⟨i, j, h⟩
    exact ⟨_, _, h.trans (sameFor_compose t hne controller timeout)⟩

/-! ## Steps of the slot -/

/-- No signal has the key of the next call in a slot. -/
structure Fresh (s : Session) (name : String) : Prop where
  state : s.store.state? (.merged (s.key name)) = none
  merge : s.store.merge? (s.key name) = none

theorem Booked.fresh (h : s.Booked n) (name : String) : (s.renew name).Fresh name := by
  obtain ⟨aborted, tickets, arrivals, haudited⟩ := h
  obtain ⟨l, hstore, -, -, hsame, -⟩ := (haudited.renew name).books
  -- Every signal has a ticket, and none has the serial number that is given next.
  have hnew : (s.renew name).key name ∉ l.records.map (·.ticket.key) := by
    intro hmem
    obtain ⟨r, hr, hkey⟩ := List.mem_map.1 hmem
    rw [Audited.key_renew] at hkey
    exact (haudited.fresh name).1 r.ticket (hsame ▸ List.mem_map.2 ⟨r, hr, rfl⟩) hkey
  refine ⟨?_, ?_⟩
  · rw [hstore, Ledger.state?_merged_of_not_mem hnew]
  · rw [hstore]
    exact lookup_map_of_not_mem hnew

namespace SameFor

theorem settle (h : SameFor name i j s t) (activity : Option Activity) (released : Nat) :
    SameFor name i j (s.settle name activity released) (t.settle name activity released) where
  config := h.config
  requestId := h.requestId
  slot := by rw [slot_settle_self, slot_settle_self, h.slot]
  now := by rw [now_settle, now_settle, h.now]
  controller c := by rw [reason?_settle, reason?_settle, h.controller c]
  reason serial := by rw [reason?_settle, reason?_settle, h.reason serial]
  merge serial := by rw [merge?_settle, merge?_settle, h.key, h.merge serial]
  released := by
    have hreleased := h.released
    show s.released + released + j = t.released + released + i
    omega

theorem renew (h : SameFor name i j s t) : SameFor name i j (s.renew name) (t.renew name) := by
  have hdrop : SameFor name i j (s.drop name) (t.drop name) := by
    rw [Session.drop, Session.drop, h.slot]
    exact h.settle none _
  exact { hdrop with slot := by rw [slot_renew, slot_renew, h.slot] }

theorem deadline? (h : SameFor name i j s t) (timeout : Option Duration) :
    s.store.deadline? timeout = t.store.deadline? timeout := by
  rw [Store.deadline?, h.now, Store.deadline?]

theorem compose (h : SameFor name i j s t) (hs : s.Fresh name) (ht : t.Fresh name)
    (controller : Option Nat) (timeout : Option Duration) :
    SameFor name i j (s.compose name controller timeout) (t.compose name controller timeout) := by
  -- The controllers have fired in both or in none.
  have hfired : (controller.toList.map Name.controller).findSome? s.store.reason? =
      (controller.toList.map Name.controller).findSome? t.store.reason? := by
    cases controller with
    | none => rfl
    | some c => simp [h.controller c]
  refine { h with now := ?_, controller := fun c => ?_, reason := fun serial => ?_,
                  merge := fun serial => ?_ }
  · rw [Session.compose, Session.compose, Store.now_compose, Store.now_compose, h.now]
  · rw [Session.compose, Session.compose, Store.reason?_compose_of_ne _ _ _ _ (by simp),
      Store.reason?_compose_of_ne _ _ _ _ (by simp), h.controller c]
  · by_cases hkey : (name, serial) = s.key name
    · simp only [Session.compose]
      rw [hkey, Store.reason?_compose hs.state, h.key, Store.reason?_compose ht.state, hfired]
    · have hne : Name.merged (name, serial) ≠ .merged (s.key name) := fun heq =>
        hkey (Name.merged.inj heq)
      simp only [Session.compose]
      rw [Store.reason?_compose_of_ne _ _ _ _ hne,
        Store.reason?_compose_of_ne _ _ _ _ (h.key ▸ hne), h.reason serial]
  · by_cases hkey : (name, serial) = s.key name
    · simp only [Session.compose]
      rw [hkey, Store.merge?_compose hs.merge, h.key, Store.merge?_compose ht.merge, hfired,
        h.deadline?]
    · simp only [Session.compose]
      rw [Store.merge?_compose_of_ne _ hkey, Store.merge?_compose_of_ne _ (h.key ▸ hkey),
        h.merge serial]

/-- A call has the same answer. -/
theorem call (h : SameFor name i j s t) (hs : s.Booked n) (ht : t.Booked n)
    (resource : Except Error Resource) (options : RequestOptions) (goal : Goal)
    (transport : Transport) :
    (s.call name resource options goal transport).2 =
        (t.call name resource options goal transport).2 ∧
      SameFor name i j (s.call name resource options goal transport).1
        (t.call name resource options goal transport).1 := by
  have hrenew := h.renew
  simp only [Session.call, ← hrenew.config]
  cases resource.bind fun r => RequestSpec.build (s.renew name).config r options with
  | error e => exact ⟨rfl, hrenew⟩
  | ok spec =>
    have hcompose := hrenew.compose (hs.fresh name) (ht.fresh name) spec.signal spec.timeout
    simp only [Session.take, hcompose.fired, hcompose.requestId, true_and]
    exact hcompose.settle _ _

theorem openLoose (h : SameFor name i j s t) (hs : s.Booked n) (ht : t.Booked n)
    (body : LooseBody) :
    (s.openLoose name body).2 = (t.openLoose name body).2 ∧
      SameFor name i j (s.openLoose name body).1 (t.openLoose name body).1 := by
  refine ⟨rfl, ?_⟩
  simp only [Session.openLoose]
  cases body.signal with
  | none => exact h.renew.settle _ _
  | some p =>
    exact (h.renew.compose (hs.fresh name) (ht.fresh name) p.1 p.2).settle _ _

theorem ask (h : SameFor name i j s t) {α : Type}
    (question : Stream → Option AbortReason → α × Stream) (answer : α → SessionAnswer) :
    (s.ask name question answer).2 = (t.ask name question answer).2 ∧
      SameFor name i j (s.ask name question answer).1 (t.ask name question answer).1 := by
  simp only [Session.ask, h.slot, h.fired]
  split
  · exact ⟨rfl, h.settle _ _⟩
  · exact ⟨rfl, h⟩

/-- A turn of what the slot holds. -/
theorem take (h : SameFor name i j s t) (activity : Activity) :
    (s.take name (Turn.ofActivity (s.fired name) activity)).2 =
        (t.take name (Turn.ofActivity (t.fired name) activity)).2 ∧
      SameFor name i j (s.take name (Turn.ofActivity (s.fired name) activity)).1
        (t.take name (Turn.ofActivity (t.fired name) activity)).1 := by
  rw [h.fired]
  exact ⟨rfl, h.settle _ _⟩

/-- A step of the slot has the same answer. -/
theorem step_self (h : SameFor name i j s t) (hs : s.Booked n) (ht : t.Booked n)
    {step : SessionStep} (hslot : step.slot? = some name) :
    (s.step step).2 = (t.step step).2 ∧ SameFor name i j (s.step step).1 (t.step step).1 := by
  have hcall : ∀ resource options goal transport,
      (s.step (.call name resource options goal transport)).2 =
          (t.step (.call name resource options goal transport)).2 ∧
        SameFor name i j (s.step (.call name resource options goal transport)).1
          (t.step (.call name resource options goal transport)).1 := by
    intro resource options goal transport
    obtain ⟨hanswer, hafter⟩ := h.call hs ht resource options goal transport
    exact ⟨congrArg (fun a => (a.1, a.2.filter transport.sends)) hanswer, hafter⟩
  cases step with
  | call other resource options goal transport =>
    obtain rfl := Option.some.inj hslot
    exact hcall resource options goal transport
  | command other command options transport =>
    obtain rfl := Option.some.inj hslot
    rw [step_command, step_command]
    exact hcall ..
  | loose other body =>
    obtain rfl := Option.some.inj hslot
    exact ⟨rfl, (h.openLoose hs ht body).2⟩
  | next other =>
    obtain rfl := Option.some.inj hslot
    obtain ⟨hanswer, hafter⟩ := h.ask Stream.poll .item
    exact ⟨congrArg (·, none) hanswer, hafter⟩
  | drain other =>
    obtain rfl := Option.some.inj hslot
    obtain ⟨hanswer, hafter⟩ := h.ask Stream.drain .items
    exact ⟨congrArg (·, none) hanswer, hafter⟩
  | drop other =>
    obtain rfl := Option.some.inj hslot
    refine ⟨rfl, ?_⟩
    simp only [Session.step, Session.drop, h.slot]
    exact h.settle _ _
  | poll other =>
    obtain rfl := Option.some.inj hslot
    simp only [Session.step, h.slot]
    split
    · exact ⟨rfl, h⟩
    · next activity _ =>
      obtain ⟨hanswer, hafter⟩ := h.take activity
      exact ⟨congrArg (·, none) hanswer, hafter⟩
  | openBody other kind =>
    obtain rfl := Option.some.inj hslot
    simp only [Session.step, h.slot]
    split
    · exact ⟨rfl, h.settle _ _⟩
    · exact ⟨rfl, h⟩
  | read other form =>
    obtain rfl := Option.some.inj hslot
    simp only [Session.step, h.slot]
    cases (t.slot other).activity.bind (beginRead form) with
    | none => exact ⟨rfl, h⟩
    | some activity =>
      obtain ⟨hanswer, hafter⟩ := h.take activity
      exact ⟨congrArg (·, none) hanswer, hafter⟩
  | abort c | advance time => cases hslot

end SameFor

end Session

end DaemonRpc

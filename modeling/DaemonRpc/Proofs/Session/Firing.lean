import DaemonRpc.Proofs.Session.Audit
import DaemonRpc.Proofs.Signal.Views

/-!
# When the signal of a call fires

The signal of a live call fires with the first that happens after its dispatch: an abort of its
controller, or a move of the clock that reaches its timeout. A `Watch` follows just that, from the
steps alone; it shows what the signal in the session shows (`Watch.Follows.step`), whatever other
calls do meanwhile.

* `Quiet`: all steps but aborts and moves of the clock leave the clock and the signals of the calls
  that there are as they were;
* `Audited.reason?_abort`, `Audited.reason?_advance`: what the other two do to the signal of a live
  call.
-/

namespace DaemonRpc

open Signal

/-- The step aborts no controller and does not move the clock. -/
def SessionStep.isQuiet : SessionStep → Bool
  | .abort _ | .advance _ => false
  | _ => true

namespace Session

variable {n : Nat} {aborted : Nat → Bool} {tickets : List (Ticket CallKey)}
  {arrivals : List Arrival} {s t : Session}

/-! ## Steps that fire nothing -/

/-- No time passes, and the signals of the calls that there are show what they showed. -/
structure Quiet (s t : Session) : Prop where
  now : t.store.now = s.store.now
  reason? : ∀ key : CallKey, key.2 ≤ (s.slot key.1).serial →
    t.store.reason? (.merged key) = s.store.reason? (.merged key)

theorem now_settle (s : Session) (name : String) (activity : Option Activity) (released : Nat) :
    (s.settle name activity released).store.now = s.store.now := by
  simp only [settle]
  split <;> rfl

theorem reason?_settle (s : Session) (name : String) (activity : Option Activity) (released : Nat)
    (signal : Name CallKey) :
    (s.settle name activity released).store.reason? signal = s.store.reason? signal := by
  simp only [settle]
  split
  · rfl
  · exact Store.reason?_clear s.store (s.key name) signal

/-- Something else is put into a slot. -/
theorem Quiet.settle (h : Quiet s t) (name : String) (activity : Option Activity)
    (released : Nat) : Quiet s (t.settle name activity released) where
  now := (now_settle t name activity released).trans h.now
  reason? key hkey := (reason?_settle t name activity released _).trans (h.reason? key hkey)

/-- A slot is prepared for another call. -/
theorem quiet_renew (s : Session) (name : String) : Quiet s (s.renew name) where
  now := now_settle s name none (((s.slot name).activity.map (·.releases)).getD 0)
  reason? _ _ := Audited.reason?_renew s name _

/-- The next call in a slot is given its signal. -/
theorem quiet_compose (s : Session) (name : String) (controller : Option Nat)
    (timeout : Option Duration) : Quiet s ((s.renew name).compose name controller timeout) where
  now := (Store.now_compose _ _ _ _).trans (quiet_renew s name).now
  reason? key hkey := by
    have hne : Name.merged key ≠ .merged ((s.renew name).key name) := by
      rw [Audited.key_renew]
      simpa using ne_nextKey hkey name
    rw [Session.compose, Store.reason?_compose_of_ne _ _ _ _ hne]
    exact (quiet_renew s name).reason? key hkey

theorem quiet_call (s : Session) (name : String) (resource : Except Error Resource)
    (options : RequestOptions) (goal : Goal) (transport : Transport) :
    Quiet s (s.call name resource options goal transport).1 := by
  simp only [call]
  split
  · exact quiet_renew s name
  · next spec _ => exact (quiet_compose s name spec.signal spec.timeout).settle name _ _

theorem quiet_openLoose (s : Session) (name : String) (body : LooseBody) :
    Quiet s (s.openLoose name body).1 := by
  simp only [openLoose]
  split
  · exact (quiet_renew s name).settle name _ _
  · next controller timeout _ => exact (quiet_compose s name controller timeout).settle name _ _

theorem quiet_refl (s : Session) : Quiet s s := ⟨rfl, fun _ _ => rfl⟩

theorem quiet_ask {α : Type} (s : Session) (name : String)
    (question : Stream → Option AbortReason → α × Stream) (answer : α → SessionAnswer) :
    Quiet s (s.ask name question answer).1 := by
  rw [ask]
  split
  · exact (quiet_refl s).settle name _ _
  · exact quiet_refl s

theorem quiet_step (s : Session) {step : SessionStep} (h : step.isQuiet = true) :
    Quiet s (s.step step).1 := by
  cases step with
  | call name resource options goal transport =>
    exact quiet_call s name resource options goal transport
  | command name command options transport =>
    rw [step_command, step_call]
    exact quiet_call ..
  | loose name body => exact quiet_openLoose s name body
  | next name => exact quiet_ask s name Stream.poll .item
  | drain name => exact quiet_ask s name Stream.drain .items
  | drop name => exact (quiet_refl s).settle name _ _
  | poll name | openBody name kind | read name form =>
    -- These look at the slot first, and change it or nothing.
    simp only [Session.step]
    split
    all_goals first | exact quiet_refl s | exact (quiet_refl s).settle name _ _
  | abort c | advance time => cases h

/-! ## Aborts and the clock -/

/-- A record that fires on a condition. -/
theorem reason_fire_ite (b : Bool) (reason : AbortReason) (r : Record CallKey) :
    (if b then r.fire reason else r).reason = r.reason.or (if b then some reason else none) := by
  cases b <;> simp [Record.fire]

/-- The signals show what is in the records, also when some of these fire. -/
theorem reason?_fire_ite {l m : Ledger CallKey} (hm : m.Distinct) {p : Record CallKey → Bool}
    {reason : AbortReason}
    (hrecords : m.records = l.records.map fun r => if p r then r.fire reason else r)
    {r : Record CallKey} (hr : r ∈ l.records) :
    m.store.reason? (.merged r.ticket.key) =
      r.reason.or (if p r then some reason else none) := by
  have hticket : (if p r then r.fire reason else r).ticket = r.ticket := by split <;> rfl
  have hmem : (if p r then r.fire reason else r) ∈ m.records := by
    rw [hrecords]
    exact List.mem_map.2 ⟨r, hr, rfl⟩
  have hshown := hm.reason?_merged hmem
  rwa [hticket, reason_fire_ite] at hshown

namespace Audited

theorem now_abort (h : Audited n aborted tickets arrivals s) (c : Nat) :
    (s.step (.abort c)).1.store.now = s.store.now := by
  obtain ⟨l, hstore, -, -, -, hbalanced⟩ := h.books
  show (s.store.abort c).1.now = _
  rw [hstore, hbalanced.distinct.store_abort, Ledger.abort]
  split <;> rfl

theorem now_advance (h : Audited n aborted tickets arrivals s) (d : Duration) :
    (s.step (.advance d)).1.store.now = s.store.now + d.nanoseconds := by
  obtain ⟨l, hstore, -, -, -, hbalanced⟩ := h.books
  show (s.store.advance d).1.now = _
  rw [hstore, hbalanced.distinct.store_advance]
  rfl

/-- The record of a live call. -/
theorem exists_record (h : Audited n aborted tickets arrivals s) {t : Ticket CallKey}
    (ht : t ∈ tickets) (hlive : s.isLive t.key = true) :
    ∃ l : Ledger CallKey, s.store = l.store ∧ l.controllers = n ∧
      Balanced l s.released s.isLive s.held? arrivals ∧
        ∃ r ∈ l.records, r.ticket = t ∧ r.cleared = false := by
  obtain ⟨l, hstore, hn, -, htickets, hbalanced⟩ := h.books
  obtain ⟨r, hr, rfl⟩ := List.mem_map.1 (htickets ▸ ht)
  refine ⟨l, hstore, hn, hbalanced, r, hr, rfl, ?_⟩
  rw [hbalanced.cleared r hr, hlive]
  rfl

/-- An abort fires the signal of a live call that follows the controller and has not fired. -/
theorem reason?_abort (h : Audited n aborted tickets arrivals s) {t : Ticket CallKey}
    (ht : t ∈ tickets) (hlive : s.isLive t.key = true) (c : Nat) :
    (s.step (.abort c)).1.store.reason? (.merged t.key) =
      (s.store.reason? (.merged t.key)).or
        (if t.controller = some c ∧ c < n then some .aborted else none) := by
  obtain ⟨l, hstore, rfl, hbalanced, r, hr, rfl, hcleared⟩ := h.exists_record ht hlive
  have hdistinct := (hbalanced.abort c).distinct
  show (s.store.abort c).1.reason? _ = _
  rw [hstore, hbalanced.distinct.store_abort, hbalanced.distinct.reason?_merged hr]
  -- What has fired stays so; what has not follows the controller, or is not reached.
  by_cases hc : c < l.controllers ∧ l.aborted c = false
  · rw [Ledger.abort, if_pos hc] at hdistinct ⊢
    rw [reason?_fire_ite hdistinct rfl hr]
    cases hreason : r.reason with
    | some reason => rfl
    | none => simp [Record.follows, Record.isPending, hreason, hcleared, hc.1]
  · rw [Ledger.abort, if_neg hc, hbalanced.distinct.reason?_merged hr]
    have hdue := hbalanced.truthful r hr hcleared
    cases hreason : r.reason with
    | some reason => rfl
    | none =>
      rw [if_neg, Option.none_or]
      rintro ⟨hcontroller, hlt⟩
      have haborted : l.aborted c = true := by simpa [hlt] using hc
      simp [hreason, Ledger.isDue, hcontroller, Ledger.isAborted, hlt, haborted] at hdue

/-- A move of the clock fires the signal of a live call whose timeout it reaches and that has not
fired. -/
theorem reason?_advance (h : Audited n aborted tickets arrivals s) {t : Ticket CallKey}
    (ht : t ∈ tickets) (hlive : s.isLive t.key = true) (d : Duration) :
    (s.step (.advance d)).1.store.reason? (.merged t.key) =
      (s.store.reason? (.merged t.key)).or
        (if t.hasElapsed (s.store.now + d.nanoseconds) then some .timedOut else none) := by
  obtain ⟨l, hstore, rfl, hbalanced, r, hr, rfl, hcleared⟩ := h.exists_record ht hlive
  show (s.store.advance d).1.reason? _ = _
  rw [hstore, hbalanced.distinct.store_advance, hbalanced.distinct.reason?_merged hr,
    reason?_fire_ite (hbalanced.advance d).distinct rfl hr]
  cases hreason : r.reason with
  | some reason => rfl
  | none =>
    have hpending : r.isPending = true := by simp [Record.isPending, hreason, hcleared]
    rw [Record.isOverdue, hpending, Bool.true_and]
    rfl

end Audited

end Session

/-! ## What the signal of one call does -/

/-- The signal of a call, as far as steps alone tell. -/
structure Watch where
  /-- The controller that may abort the call. -/
  controller : Option Nat
  /-- After how many nanoseconds the call has timed out. -/
  limit : Option Nat
  /-- The nanoseconds since the call was dispatched. -/
  elapsed : Nat := 0
  /-- Why the signal has fired. -/
  reason : Option AbortReason := none
  deriving DecidableEq, Repr

namespace Watch

/-- The first reason counts: an abort of the controller, or a move of the clock that reaches the
limit. -/
def look (w : Watch) : SessionStep → Watch
  | .abort c =>
    { w with reason := w.reason.or (if w.controller = some c then some .aborted else none) }
  | .advance d =>
    let elapsed := w.elapsed + d.nanoseconds
    { w with
      elapsed
      reason := w.reason.or (if w.limit.any (· ≤ elapsed) then some .timedOut else none) }
  | _ => w

/-- A step that fires nothing changes nothing. -/
theorem look_of_isQuiet (w : Watch) {step : SessionStep} (h : step.isQuiet = true) :
    w.look step = w := by
  cases step <;> simp_all [look, SessionStep.isQuiet]

/-- The watch follows what a ticket names, of so many controllers, and its clock runs from the
dispatch. -/
structure Fits (w : Watch) (n : Nat) (t : Ticket CallKey) (now : Nat) : Prop where
  controller : ∀ c, t.controller = some c ∧ c < n ↔ w.controller = some c
  deadline : ∃ begun, now = begun + w.elapsed ∧ t.deadline = w.limit.map (begun + ·)

theorem Fits.hasElapsed {w : Watch} {n now : Nat} {t : Ticket CallKey} (h : w.Fits n t now)
    (more : Nat) : t.hasElapsed (now + more) = w.limit.any (· ≤ w.elapsed + more) := by
  obtain ⟨begun, rfl, hdeadline⟩ := h.deadline
  rw [Ticket.hasElapsed, hdeadline]
  cases w.limit with
  | none => rfl
  | some limit => simp [Nat.add_assoc]

/-- The watch shows what the signal of the call in a slot shows. -/
structure Follows (w : Watch) (n : Nat) (s : Session) (name : String) : Prop where
  issued : ∃ aborted tickets arrivals, s.Audited n aborted tickets arrivals ∧
    ∃ t ∈ tickets, t.key = s.key name ∧ w.Fits n t s.store.now
  reason : s.fired name = w.reason

/-- Whatever happens in other slots, the watch goes on to show what the signal shows. -/
theorem Follows.step {w : Watch} {n : Nat} {s : Session} {name : String} (h : w.Follows n s name)
    (hlive : s.isLive (s.key name) = true) {step : SessionStep}
    (hkey : (s.step step).1.key name = s.key name) :
    (w.look step).Follows n (s.step step).1 name := by
  obtain ⟨⟨aborted, tickets, arrivals, haudited, t, ht, hticket, hfits⟩, hreason⟩ := h
  rw [← hticket] at hlive
  -- The books of the next session have the same ticket, so two things are left to show.
  suffices hshown : (w.look step).Fits n t (s.step step).1.store.now ∧
      (s.step step).1.store.reason? (.merged t.key) = (w.look step).reason from
    ⟨⟨_, _, _, haudited.step step, t, List.mem_append_left _ ht, hticket.trans hkey.symm,
      hshown.1⟩, by rw [Session.fired, hkey, ← hticket, hshown.2]⟩
  rw [Session.fired, ← hticket] at hreason
  cases hquiet : step.isQuiet with
  | true =>
    have hstep := Session.quiet_step s hquiet
    rw [w.look_of_isQuiet hquiet, hstep.now, hstep.reason? t.key (haudited.issued t ht)]
    exact ⟨hfits, hreason⟩
  | false =>
    cases step with
    | abort c =>
      have hfires := haudited.reason?_abort ht hlive c
      rw [hreason, if_congr (hfits.controller c) rfl rfl] at hfires
      rw [haudited.now_abort]
      exact ⟨⟨hfits.controller, hfits.deadline⟩, hfires⟩
    | advance d =>
      have hfires := haudited.reason?_advance ht hlive d
      rw [hreason, hfits.hasElapsed] at hfires
      obtain ⟨begun, hnow, hdeadline⟩ := hfits.deadline
      refine ⟨⟨hfits.controller, begun, ?_, hdeadline⟩, hfires⟩
      rw [haudited.now_advance, hnow, Nat.add_assoc]
      rfl
    | _ => cases hquiet

end Watch

/-! ## The signal of a new call -/

/-- What the signal of a request does that is dispatched after these steps of a session with so many
controllers: it has fired already if its controller was aborted; a timeout of zero never passes. -/
def RequestSpec.watch (spec : RequestSpec) (n : Nat) (before : List SessionStep) : Watch where
  controller := spec.signal.filter (· < n)
  limit := (spec.timeout.filter fun d => !d.isZero).map (·.nanoseconds)
  reason :=
    if (spec.signal.filter (· < n)).any fun c => before.any (·.aborts c) then some .aborted
    else none

theorem RequestSpec.fits_watch (spec : RequestSpec) (n : Nat) (before : List SessionStep)
    (key : CallKey) (store : Store CallKey) :
    (spec.watch n before).Fits n ⟨key, spec.signal, store.deadline? spec.timeout⟩ store.now where
  controller c := by simp [RequestSpec.watch, Option.filter_eq_some_iff]
  deadline := by
    refine ⟨store.now, rfl, ?_⟩
    rw [RequestSpec.watch, Option.map_map]
    rfl

namespace Session.Audited

variable {n : Nat} {before : List SessionStep} {tickets : List (Ticket CallKey)}
  {arrivals : List Arrival} {s : Session}

/-- A controller has fired if it was aborted. -/
theorem reason?_controller {aborted : Nat → Bool} (h : Audited n aborted tickets arrivals s)
    (c : Nat) :
    s.store.reason? (.controller c) = if c < n ∧ aborted c = true then some .aborted else none := by
  obtain ⟨l, hstore, rfl, haborted, -, -⟩ := h.books
  rw [hstore, Ledger.reason?_controller]
  by_cases hc : c < l.controllers
  · simp [hc, Ledger.reason?, haborted c hc]
  · simp [hc]

theorem fired_dispatched (h : Audited n (fun c => before.any (·.aborts c)) tickets arrivals s)
    (name : String) (spec : RequestSpec) :
    ((s.renew name).compose name spec.signal spec.timeout).fired name =
      (spec.watch n before).reason := by
  rw [h.fired_compose, RequestSpec.watch]
  cases spec.signal with
  | none => rfl
  | some c =>
    rw [Option.bind_some, h.reason?_controller]
    by_cases hc : c < n <;> simp [hc, Option.filter]

/-- The watch of a request shows what the signal of its call shows. -/
theorem follows_call (h : Audited n (fun c => before.any (·.aborts c)) tickets arrivals s)
    (name : String) {spec : RequestSpec} {resource : Except Error Resource}
    {options : RequestOptions} (goal : Goal) (transport : Transport)
    (hbuild : (resource.bind fun r => RequestSpec.build s.config r options) = .ok spec) :
    (spec.watch n before).Follows n (s.call name resource options goal transport).1 name := by
  have hbuilt : (resource.bind fun r => RequestSpec.build (s.renew name).config r options) =
      .ok spec := hbuild
  have hkey : (s.call name resource options goal transport).1.key name = s.nextKey name := by
    rw [← key_renew]
    simp [Session.call, hbuilt, Session.take, key]
  have hfits := spec.fits_watch n before (s.nextKey name) s.store
  rw [← (quiet_call s name resource options goal transport).now] at hfits
  refine ⟨⟨_, _, _, h.call name goal transport hbuild, _, List.mem_append_right _
    (List.mem_singleton_self _), hkey.symm, hfits⟩, ?_⟩
  rw [← h.fired_dispatched name spec, fired, hkey, ← key_renew]
  simp only [Session.call, hbuilt, Session.take, reason?_settle]
  rfl

end Session.Audited

end DaemonRpc

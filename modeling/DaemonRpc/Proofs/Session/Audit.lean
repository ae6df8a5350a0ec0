import DaemonRpc.Proofs.Session.Books
import DaemonRpc.Proofs.Session.Calls

/-!
# The books of a run

Each step of a session may dispatch a call (`Session.ticket?`), and the network may hand a body over
in it (`Session.arrival?`). `Session.Audited` says that a session keeps balanced books for what was
dispatched and handed over so far. A step keeps them (`Audited.step`), and so does a run
(`Audited.runSteps`).
-/

namespace DaemonRpc

/-- The step aborts the controller. -/
def SessionStep.aborts (controller : Nat) : SessionStep → Bool
  | .abort c => controller == c
  | _ => false

namespace Session

open Signal

/-! ## What happens in a step -/

/-- The request that a step dispatches, with its slot and what will come back for it. -/
def request? (s : Session) : SessionStep → Option (String × RequestSpec × Reply)
  | .call name resource options _ transport =>
    (resource.bind fun r => RequestSpec.build s.config r options).toOption.map fun spec =>
      (name, spec, transport.reply (spec.outgoing s.requestId))
  | .command name command options transport =>
    (RequestSpec.build s.config (.path command.path)
      { command.options options with method := some "POST" }).toOption.map fun spec =>
        (name, spec, transport.reply (spec.outgoing s.requestId))
  | _ => none

/-- The signal that a step gives to a call. -/
def ticket? (s : Session) (step : SessionStep) : Option (Ticket CallKey) :=
  match step with
  | .loose name body => body.signal.map fun (controller, timeout) =>
    ⟨s.nextKey name, controller, s.store.deadline? timeout⟩
  | _ => (s.request? step).map fun (name, spec, _) =>
    ⟨s.nextKey name, spec.signal, s.store.deadline? spec.timeout⟩

/-- The body that the network hands over in a step, with the key of its call. -/
def arrival? (s : Session) (step : SessionStep) : Option Arrival :=
  match step with
  | .loose name body => some (s.nextKey name, body.body)
  | .poll name => ((s.slot name).activity.bind (·.arrival? (s.fired name))).map (s.key name, ·)
  | _ => (s.request? step).bind fun (name, spec, reply) =>
    -- A call is not sent if its controller was aborted before.
    (spec.arrival? (spec.signal.bind fun c => s.store.reason? (.controller c)) reply).map
      (s.nextKey name, ·)

/-- What happens in the steps of a run. -/
def history {α : Type} (event? : Session → SessionStep → Option α) :
    Session → List SessionStep → List α
  | _, [] => []
  | s, step :: more => (event? s step).toList ++ history event? (s.step step).1 more

/-! ## Audited sessions -/

/-- The session keeps balanced books for these calls and bodies. -/
structure Audited (n : Nat) (aborted : Nat → Bool) (tickets : List (Ticket CallKey))
    (arrivals : List Arrival) (s : Session) : Prop where
  books : ∃ l : Ledger CallKey, s.store = l.store ∧ l.controllers = n ∧
    (∀ c < n, l.aborted c = aborted c) ∧ l.records.map (·.ticket) = tickets ∧
      Balanced l s.released s.isLive s.held? arrivals
  sound : s.Sound
  issued : ∀ t ∈ tickets, t.key.2 ≤ (s.slot t.key.1).serial
  arrived : ∀ a ∈ arrivals, a.1.2 ≤ (s.slot a.1.1).serial

namespace Audited

variable {n : Nat} {aborted : Nat → Bool} {tickets : List (Ticket CallKey)}
  {arrivals : List Arrival} {s : Session}

theorem serial_settle (s : Session) (name : String) (next : Option Activity) (released : Nat)
    (other : String) :
    ((s.settle name next released).slot other).serial = (s.slot other).serial := by
  rw [slot_settle]
  split
  · next h => rw [h]
  · rfl

theorem sound_settle (h : s.Sound) {name : String}
    {next : Option Activity} (hnext : ∀ a ∈ next, a.Sound) (released : Nat) (other : String) :
    ∀ a ∈ ((s.settle name next released).slot other).activity, a.Sound := by
  rw [slot_settle]
  split
  · exact hnext
  · exact h other

/-- The call in a slot takes a turn, which may be its first: the books may have it as live
before the slot does. -/
theorem of_books {l : Ledger CallKey} (hstore : s.store = l.store) (hn : l.controllers = n)
    (haborted : ∀ c < n, l.aborted c = aborted c) (htickets : l.records.map (·.ticket) = tickets)
    {live : CallKey → Bool} {held : CallKey → Option Bool}
    (hbalanced : Balanced l s.released live held arrivals)
    (hsound : s.Sound)
    (hissued : ∀ t ∈ tickets, t.key.2 ≤ (s.slot t.key.1).serial)
    (hbounded : ∀ a ∈ arrivals, a.1.2 ≤ (s.slot a.1.1).serial)
    {name : String} (hlive : ∀ b, replace live (s.key name) b = replace s.isLive (s.key name) b)
    (hheld : ∀ b, replace held (s.key name) b = replace s.held? (s.key name) b)
    {arrived : Option BodySource} {next : Option Activity} {more : Nat}
    (harrived : arrived.isSome = true → held (s.key name) = none)
    (hturn : Balances (held (s.key name)) arrived next more)
    (hover : live (s.key name) = false → next.any (·.isLive) = false ∧ arrived = none) :
    Audited n aborted tickets (arrivals ++ arrived.toList.map (s.key name, ·))
      (s.settle name next more) := by
  -- The call is live in the books, or it is over and nothing happens to it.
  have hbooks : Balanced (if next.any (·.isLive) then l else l.clear (s.key name))
      (s.released + more) (replace live (s.key name) (next.any (·.isLive)))
      (replace held (s.key name) (next.bind (·.held?)))
      (arrivals ++ arrived.toList.map (s.key name, ·)) := by
    cases hon : live (s.key name) with
    | true => exact hbalanced.settle hon harrived hturn
    | false =>
      obtain ⟨hnext, rfl⟩ := hover hon
      have hmore : more = 0 := by
        have hreleased := hturn.released
        rw [hbalanced.held_of_not_live hon] at hreleased
        exact Nat.eq_zero_of_add_eq_zero_right hreleased
      have hsettled := hbalanced.settle_over hon hnext
      simpa [hnext, hmore] using hsettled
  refine ⟨⟨if next.any (·.isLive) then l else l.clear (s.key name), ?_, ?_, ?_, ?_, ?_⟩,
    sound_settle hsound hturn.sound more, ?_, ?_⟩
  · simp only [Session.settle, hstore]
    split
    · rfl
    · rw [hbalanced.distinct.store_clear]
  · split <;> exact hn
  · split <;> exact haborted
  · split
    · exact htickets
    · rw [Ledger.clear, Ledger.keys_modify Record.closes_clear]
      exact htickets
  · rw [isLive_settle, held?_settle, ← hlive, ← hheld]
    exact hbooks
  · intro t ht
    rw [serial_settle]
    exact hissued t ht
  · intro a ha
    rw [serial_settle]
    rcases List.mem_append.1 ha with ha | ha
    · exact hbounded a ha
    · obtain ⟨body, -, rfl⟩ := List.mem_map.1 ha
      exact Nat.le_refl _

/-- The call in a slot takes a turn. -/
theorem settle (h : Audited n aborted tickets arrivals s) {name : String}
    {arrived : Option BodySource} {next : Option Activity} {more : Nat}
    (harrived : arrived.isSome = true → s.held? (s.key name) = none)
    (hturn : Balances (s.held? (s.key name)) arrived next more)
    (hover : s.isLive (s.key name) = false →
      next.any (·.isLive) = false ∧ arrived = none) :
    Audited n aborted tickets (arrivals ++ arrived.toList.map (s.key name, ·))
      (s.settle name next more) := by
  obtain ⟨l, hstore, hn, haborted, htickets, hbalanced⟩ := h.books
  exact of_books hstore hn haborted htickets hbalanced h.sound h.issued h.arrived
    (fun _ => rfl) (fun _ => rfl) harrived hturn hover

/-- The call in a slot is dropped. -/
theorem drop (h : Audited n aborted tickets arrivals s) (name : String) :
    Audited n aborted tickets arrivals (s.drop name) := by
  have hreleases : ((s.slot name).activity.map (·.releases)).getD 0 =
      heldCount (s.held? (s.key name)) := by
    rw [held?_key]
    cases (s.slot name).activity with
    | none => rfl
    | some a => exact releases_eq a
  have hsettled := h.settle (by simp) (balances_none (s.held? (s.key name))) fun _ => ⟨rfl, rfl⟩
  rw [Session.drop, hreleases]
  simpa using hsettled

/-- A slot is prepared for another call. -/
theorem renew (h : Audited n aborted tickets arrivals s) (name : String) :
    Audited n aborted tickets arrivals (s.renew name) := by
  have hdrop := h.drop name
  have hserial : ∀ other,
      ((s.drop name).slot other).serial ≤ ((s.renew name).slot other).serial := by
    intro other
    rw [Session.drop, serial_settle, slot_renew]
    split
    · next ho =>
      subst ho
      exact Nat.le_succ _
    · exact Nat.le_refl _
  -- The ledger is that of the dropped slot; only the number of the next call is new.
  obtain ⟨l, hstore, hn, haborted, htickets, hbalanced⟩ := hdrop.books
  refine ⟨⟨l, hstore, hn, haborted, htickets, ?_⟩, ?_, ?_, ?_⟩
  · rw [isLive_renew, held?_renew]
    exact hbalanced
  · intro other a ha
    rw [slot_renew] at ha
    split at ha
    · simp at ha
    · exact h.sound other a ha
  · exact fun t ht => Nat.le_trans (hdrop.issued t ht) (hserial _)
  · exact fun a ha => Nat.le_trans (hdrop.arrived a ha) (hserial _)

/-- A deadline that is set now has not passed. -/
theorem hasElapsed_deadline? (s : Session) (key : CallKey) (controller : Option Nat)
    (timeout : Option Duration) :
    (Ticket.mk key controller (s.store.deadline? timeout)).hasElapsed s.store.now = false := by
  cases timeout with
  | none => rfl
  | some d =>
    by_cases hd : d.nanoseconds = 0
    · simp [Ticket.hasElapsed, Store.deadline?, Option.filter, Duration.isZero, hd]
    · have hlater : ¬ s.store.now + d.nanoseconds ≤ s.store.now := by omega
      simp [Ticket.hasElapsed, Store.deadline?, Option.filter, Duration.isZero, hd, hlater]

/-- A call is dispatched in a slot that was prepared for it, perhaps with a signal, and takes its
first turn. -/
theorem dispatch (h : Audited n aborted tickets arrivals s) {name : String}
    (htickets : ∀ t ∈ tickets, t.key ≠ s.key name) (harrivals : ∀ a ∈ arrivals, a.1 ≠ s.key name)
    (signal : Option (Option Nat × Option Duration)) {arrived : Option BodySource}
    {next : Option Activity} {more : Nat} (hturn : Balances none arrived next more) :
    Audited n aborted
      (tickets ++ (signal.map fun (controller, timeout) =>
        (⟨s.key name, controller, s.store.deadline? timeout⟩ : Ticket CallKey)).toList)
      (arrivals ++ arrived.toList.map (s.key name, ·))
      (((signal.map fun (controller, timeout) => s.compose name controller timeout).getD s).settle
        name next more) := by
  obtain ⟨l, hstore, hn, haborted, hsame, hbalanced⟩ := h.books
  have hrecords : s.key name ∉ l.records.map (·.ticket.key) := by
    intro hmem
    obtain ⟨r, hr, hkey⟩ := List.mem_map.1 hmem
    exact htickets r.ticket (hsame ▸ List.mem_map.2 ⟨r, hr, rfl⟩) hkey
  have hfree : s.key name ∉ arrivals.map Prod.fst := by
    intro hmem
    obtain ⟨a, ha, hkey⟩ := List.mem_map.1 hmem
    exact harrivals a ha hkey
  have hissued : ∀ t : Option (Ticket CallKey), (∀ u ∈ t, u.key = s.key name) →
      ∀ u ∈ tickets ++ t.toList, u.key.2 ≤ (s.slot u.key.1).serial := by
    intro t ht u hu
    rcases List.mem_append.1 hu with hu | hu
    · exact h.issued u hu
    · rw [ht u (Option.mem_toList.1 hu)]
      exact Nat.le_refl _
  cases signal with
  | none =>
    have hopened := hbalanced.dispatch hrecords hfree (t := none) (by simp)
    exact of_books hstore hn haborted (by simpa using hsame) hopened h.sound
      (hissued none (by simp)) h.arrived (fun _ => replace_replace _ _ _ _)
      (fun _ => replace_replace _ _ _ _) (fun _ => replace_self _ _ _)
      (by rwa [replace_self]) (by simp)
  | some p =>
    obtain ⟨controller, timeout⟩ := p
    have hnow : s.store.now = l.now := by rw [hstore]; rfl
    have helapsed := hasElapsed_deadline? s (s.key name) controller timeout
    rw [hnow] at helapsed
    have hopened := hbalanced.dispatch hrecords hfree
      (t := some ⟨s.key name, controller, s.store.deadline? timeout⟩) (by simpa using helapsed)
    have hcomposed : (s.compose name controller timeout).store =
        (l.issue ⟨s.key name, controller, s.store.deadline? timeout⟩).store := by
      rw [compose, hstore, Ledger.store_issue]
    have hkey : (s.compose name controller timeout).key name = s.key name := rfl
    refine of_books hcomposed hn haborted ?_ hopened h.sound (hissued (some _) (by simp)) h.arrived
      (fun b => replace_replace _ _ _ _) (fun b => replace_replace _ _ _ _)
      (fun _ => replace_self _ _ _) (by rwa [hkey, replace_self]) (by simp [hkey])
    rw [← hsame]
    exact List.map_append

/-! ## One step -/

/-- No call had the next key of a slot. -/
theorem fresh (h : Audited n aborted tickets arrivals s) (name : String) :
    (∀ t ∈ tickets, t.key ≠ s.nextKey name) ∧ ∀ a ∈ arrivals, a.1 ≠ s.nextKey name := by
  refine ⟨fun t ht hkey => ?_, fun a ha hkey => ?_⟩
  · have hle := h.issued t ht
    rw [hkey] at hle
    exact Nat.not_succ_le_self _ hle
  · have hle := h.arrived a ha
    rw [hkey] at hle
    exact Nat.not_succ_le_self _ hle

theorem key_renew (s : Session) (name : String) : (s.renew name).key name = s.nextKey name := by
  simp [key, slot_renew, nextKey]

theorem reason?_renew (s : Session) (name : String) (signal : Name CallKey) :
    (s.renew name).store.reason? signal = s.store.reason? signal :=
  Store.reason?_clear s.store (s.key name) signal

/-- The signal of a new call has fired if its controller has. -/
theorem fired_compose (h : Audited n aborted tickets arrivals s) (name : String)
    (controller : Option Nat) (timeout : Option Duration) :
    ((s.renew name).compose name controller timeout).fired name =
      controller.bind fun c => s.store.reason? (.controller c) := by
  obtain ⟨l, hstore, -, -, hsame, -⟩ := (h.renew name).books
  -- No merged signal has the new key yet.
  have hnew : (s.renew name).store.state? (.merged ((s.renew name).key name)) = none := by
    rw [hstore, Ledger.state?_merged_of_not_mem]
    intro hmem
    obtain ⟨r, hr, hkey⟩ := List.mem_map.1 hmem
    rw [key_renew] at hkey
    exact (h.fresh name).1 r.ticket (hsame ▸ List.mem_map.2 ⟨r, hr, rfl⟩) hkey
  refine (Store.reason?_compose hnew _ timeout).trans ?_
  cases controller with
  | none => rfl
  | some c =>
    simp only [Option.toList_some, List.map_cons, List.map_nil, List.findSome?_cons,
      List.findSome?_nil, Option.bind_some, reason?_renew]
    cases s.store.reason? (.controller c) <;> rfl

/-- A call starts. -/
theorem call (h : Audited n aborted tickets arrivals s) (name : String) {spec : RequestSpec}
    {resource : Except Error Resource} {options : RequestOptions} (goal : Goal)
    (transport : Transport)
    (hbuild : (resource.bind fun r => RequestSpec.build s.config r options) = .ok spec) :
    Audited n aborted
      (tickets ++ [⟨s.nextKey name, spec.signal, s.store.deadline? spec.timeout⟩])
      (arrivals ++ ((spec.arrival? (spec.signal.bind fun c => s.store.reason? (.controller c))
        (transport.reply (spec.outgoing s.requestId))).map (s.nextKey name, ·)).toList)
      (s.call name resource options goal transport).1 := by
  obtain ⟨htickets, harrivals⟩ := h.fresh name
  rw [← key_renew] at htickets harrivals
  have hturn := Turn.balances_start
    (((s.renew name).compose name spec.signal spec.timeout).fired name) spec s.requestId goal
    transport
  have hcalled :=
    (h.renew name).dispatch htickets harrivals (some (spec.signal, spec.timeout)) hturn
  have hbuilt : (resource.bind fun r => RequestSpec.build (s.renew name).config r options) =
      .ok spec := hbuild
  simp only [Session.call, hbuilt, Session.take, Option.toList_map]
  rw [h.fired_compose, key_renew] at hcalled
  rw [h.fired_compose]
  exact hcalled

/-- A body that comes without a call begins to be read. -/
theorem openLoose (h : Audited n aborted tickets arrivals s) (name : String) (body : LooseBody) :
    Audited n aborted (tickets ++ (s.ticket? (.loose name body)).toList)
      (arrivals ++ (s.arrival? (.loose name body)).toList) (s.openLoose name body).1 := by
  obtain ⟨htickets, harrivals⟩ := h.fresh name
  rw [← key_renew] at htickets harrivals
  have hview : ({ source := some body.body, headReport := body.headReport } : ByteView).Sound := rfl
  -- Nobody waits for the body: it is held from the beginning.
  have hturn := (balances_ofBytes hview rfl body.kind body.transform).arrive
  have hopened := (h.renew name).dispatch htickets harrivals body.signal hturn
  rw [key_renew, Nat.zero_add] at hopened
  simp only [ticket?, arrival?, Session.openLoose]
  cases hsignal : body.signal with
  | none =>
    rw [hsignal] at hopened
    exact hopened
  | some p =>
    rw [hsignal] at hopened
    exact hopened

/-- A stream is asked. -/
theorem ask {α : Type} (h : Audited n aborted tickets arrivals s) (name : String)
    {question : Stream → Option AbortReason → α × Stream} (answer : α → SessionAnswer)
    (hquestion : ∀ {stream : Stream} (fired : Option AbortReason), stream.Sound →
      (question stream fired).2.Sound ∧ Keeps stream.held? (question stream fired).2.held?) :
    Audited n aborted tickets arrivals (s.ask name question answer).1 := by
  rw [Session.ask]
  split
  · next stream hactivity =>
    have hheld : s.held? (s.key name) = stream.held? := by
      rw [held?_key, hactivity]
      rfl
    obtain ⟨hsound, hkeeps⟩ := hquestion (s.fired name) (h.sound name (.stream stream) hactivity)
    have hturn := balances_ask hsound hkeeps
    rw [← hheld] at hturn
    have hover : s.isLive (s.key name) = false →
        (some (Activity.stream (question stream (s.fired name)).2)).any (·.isLive) = false ∧
          (none : Option BodySource) = none := by
      intro hlive
      refine ⟨?_, rfl⟩
      rw [isLive_key, hactivity, Option.any_some] at hlive
      rw [Option.any_some, ← Bool.not_eq_true]
      intro hnext
      rw [isLive_of_keeps hkeeps hnext] at hlive
      exact Bool.noConfusion hlive
    simpa using h.settle (by simp) hturn hover
  · exact h

/-- What a slot holds takes a turn. -/
theorem take (h : Audited n aborted tickets arrivals s) {name : String} {a : Activity}
    (hactivity : (s.slot name).activity = some a) {b : Activity} (hsound : b.Sound)
    (hheld : b.held? = a.held?) (hlive : b.isLive = a.isLive) (fired : Option AbortReason) :
    Audited n aborted tickets
      (arrivals ++ ((b.arrival? fired).map (s.key name, ·)).toList)
      (s.take name (Turn.ofActivity fired b)).1 := by
  have hkey : s.held? (s.key name) = b.held? := by
    rw [held?_key, hactivity, hheld]
    rfl
  have hon : s.isLive (s.key name) = b.isLive := by
    rw [isLive_key, hactivity, hlive]
    rfl
  have hturn := Turn.balances_ofActivity hsound fired
  rw [← hkey] at hturn
  have hsettled := h.settle (fun harrived => hkey.trans (Activity.of_arrival? harrived).2) hturn
    fun hover => by
      rw [hon] at hover
      refine ⟨Turn.next_of_over hsound hover fired, ?_⟩
      rw [← Option.not_isSome_iff_eq_none]
      intro harrived
      simp [(Activity.of_arrival? harrived).1] at hover
  rw [Option.toList_map]
  exact hsettled

/-- A controller is aborted. -/
theorem abort (h : Audited n aborted tickets arrivals s) (c : Nat) :
    Audited n (fun d => aborted d || d == c) tickets arrivals
      { s with store := (s.store.abort c).1 } := by
  obtain ⟨l, hstore, hn, haborted, htickets, hbalanced⟩ := h.books
  refine ⟨⟨l.abort c, ?_, ?_, ?_, ?_, hbalanced.abort c⟩, h.sound, h.issued, h.arrived⟩
  · rw [hstore, hbalanced.distinct.store_abort]
  · unfold Ledger.abort
    split <;> exact hn
  · intro d hd
    unfold Ledger.abort
    split
    · rw [← haborted d hd, Bool.or_comm]
      rfl
    · next hc =>
      rw [← haborted d hd]
      -- Aborting does nothing only if there is no such controller or it was aborted before.
      by_cases hdc : d = c
      · subst hdc
        have : l.aborted d = true := by simpa [hn, hd] using hc
        rw [this, Bool.true_or]
      · rw [beq_false_of_ne hdc, Bool.or_false]
  · have hkept := congrArg (List.map Prod.fst) (l.records_abort c)
    rw [List.map_map, List.map_map] at hkept
    exact hkept.trans htickets

/-- The clock moves. -/
theorem advance (h : Audited n aborted tickets arrivals s) (d : Duration) :
    Audited n aborted tickets arrivals { s with store := (s.store.advance d).1 } := by
  obtain ⟨l, hstore, hn, haborted, htickets, hbalanced⟩ := h.books
  refine ⟨⟨l.advance d, ?_, hn, haborted, ?_, hbalanced.advance d⟩, h.sound, h.issued, h.arrived⟩
  · rw [hstore, hbalanced.distinct.store_advance]
  · have hkept := congrArg (List.map Prod.fst) (l.records_advance d)
    rw [List.map_map, List.map_map] at hkept
    exact hkept.trans htickets

/-- A call starts, unless its request cannot be built. -/
theorem start (h : Audited n aborted tickets arrivals s) (name : String)
    (resource : Except Error Resource) (options : RequestOptions) (goal : Goal)
    (transport : Transport) :
    Audited n aborted
      (tickets ++ (s.ticket? (.call name resource options goal transport)).toList)
      (arrivals ++ (s.arrival? (.call name resource options goal transport)).toList)
      (s.call name resource options goal transport).1 := by
  simp only [ticket?, arrival?, request?]
  cases hbuild : resource.bind fun r => RequestSpec.build s.config r options with
  | error e =>
    have hbuilt : (resource.bind fun r => RequestSpec.build (s.renew name).config r options) =
        .error e := hbuild
    simpa [Except.toOption, Session.call, hbuilt] using h.renew name
  | ok spec => exact h.call name goal transport hbuild

/-- A step keeps the books, with what is dispatched and what is handed over in it. -/
theorem step (h : Audited n aborted tickets arrivals s) (step : SessionStep) :
    Audited n (fun c => aborted c || step.aborts c) (tickets ++ (s.ticket? step).toList)
      (arrivals ++ (s.arrival? step).toList) (s.step step).1 := by
  -- Most steps abort no controller, and many dispatch nothing and are handed nothing.
  have quiet : ∀ {tickets arrivals t}, Audited n aborted tickets arrivals t →
      Audited n (fun c => aborted c || false) tickets arrivals t := by
    intro tickets arrivals t ht
    simpa using ht
  have same : ∀ {t}, Audited n aborted tickets arrivals t →
      Audited n aborted (tickets ++ []) (arrivals ++ []) t := by
    intro t ht
    simpa using ht
  cases step with
  | call name resource options goal transport =>
    exact quiet (h.start name resource options goal transport)
  | command name command options transport =>
    have hstarted := h.start name (.ok (.path command.path))
      { command.options options with method := some "POST" } command.goal transport
    simp only [ticket?, request?, arrival?, Except.bind] at hstarted ⊢
    rw [step_command, step_call]
    exact quiet hstarted
  | loose name body => exact quiet (h.openLoose name body)
  | poll name =>
    apply quiet
    simp only [ticket?, request?, arrival?, Session.step]
    cases hactivity : (s.slot name).activity with
    | none => exact same h
    | some a =>
      have htaken := h.take hactivity (h.sound name a hactivity) rfl rfl (s.fired name)
      simpa using htaken
  | openBody name kind =>
    refine quiet (same ?_)
    simp only [Session.step]
    split
    · next r hactivity =>
      have hheld : s.held? (s.key name) = r.view.held? := by
        rw [held?_key, hactivity]
        rfl
      have hturn : Balances r.view.held? none (some (.stream (r.stream kind))) 0 :=
        balances_ofBytes (Turn.sound_view r) rfl kind r.transform
      rw [← hheld] at hturn
      have hon : (Activity.response r).isLive = true := rfl
      simpa using h.settle (by simp) hturn fun hover => by simp [hactivity, hon] at hover
    · exact h
  | read name form =>
    refine quiet (same ?_)
    simp only [Session.step]
    split
    · exact h
    · next b hbegin =>
      obtain ⟨a, hactivity, hbegin⟩ := Option.bind_eq_some_iff.1 hbegin
      obtain ⟨hsound, hheld, hlive, hnone⟩ := beginRead_spec (h.sound name a hactivity) hbegin
      have htaken := h.take hactivity hsound hheld hlive (s.fired name)
      rw [hnone] at htaken
      simpa using htaken
  | next name =>
    have hasked := h.ask name SessionAnswer.item fun fired hsound =>
      ⟨(Stream.Sound.poll hsound fired).1, (Stream.Sound.poll hsound fired).2.1⟩
    exact quiet (same hasked)
  | drain name =>
    have hasked := h.ask name SessionAnswer.items fun fired hsound =>
      ⟨(Stream.Sound.drain hsound fired).1, (Stream.Sound.drain hsound fired).2.1⟩
    exact quiet (same hasked)
  | drop name => exact quiet (same (h.drop name))
  | abort c =>
    show Audited n _ (tickets ++ []) (arrivals ++ []) _
    rw [List.append_nil, List.append_nil]
    exact h.abort c
  | advance time => exact quiet (same (h.advance time))

/-- A run keeps the books, with all that is dispatched and handed over during it. -/
theorem runSteps (h : Audited n aborted tickets arrivals s) (steps : List SessionStep) :
    Audited n (fun c => aborted c || steps.any (·.aborts c)) (tickets ++ history ticket? s steps)
      (arrivals ++ history arrival? s steps) (s.runSteps steps) := by
  -- The books grow by what happens in each step.
  induction steps generalizing s aborted tickets arrivals with
  | nil => simpa [history, Session.runSteps] using h
  | cons step more ih =>
    have hrun := ih (h.step step)
    simp only [List.append_assoc] at hrun
    simp only [List.any_cons, ← Bool.or_assoc]
    exact hrun

end Audited

/-- The controllers of a new session have nothing attached. -/
theorem store_controllers (n : Nat) :
    (List.range n).foldl Store.addController ({} : Store CallKey) =
      ({ controllers := n } : Ledger CallKey).store := by
  induction n with
  | zero => rfl
  | succ n ih =>
    rw [List.range_succ, List.foldl_append, ih]
    simp [Store.addController, Ledger.store, Ledger.controllerEntries, Ledger.mergedEntries,
      List.range_succ, Ledger.entry, Ledger.reason?, Ledger.relays]

/-- A session begins with empty books. -/
theorem audited_start (config : ClientConfig) (requestId : String) (n : Nat) :
    Audited n (fun _ => false) [] [] (start config requestId n) := by
  have hslot : ∀ name, (start config requestId n).slot name = {} := fun _ => rfl
  refine ⟨⟨{ controllers := n }, store_controllers n, rfl, fun _ _ => rfl, rfl, ?_⟩, ?_, by simp,
    by simp⟩
  · exact {
      distinct := List.nodup_nil
      truthful := by simp [Ledger.Truthful]
      cleared := by simp
      once := List.nodup_nil
      arrived := by simp
      holds := by simp [held?, hslot]
      released := rfl }
  · intro name a ha
    simp [hslot] at ha

end Session

end DaemonRpc

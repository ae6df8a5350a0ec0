import DaemonRpc.Proofs.Body.Holding
import DaemonRpc.Session

/-!
# The bodies in a turn

A turn of a slot starts from what the slot holds and from what the network hands over in it, and
ends with what the slot holds then and with how many bodies were let go of. Nothing is lost on the
way (`Balances`), on any path through a call, the reading of a body or the end of either.

An activity says by what it has recorded whether its call goes on (`Activity.isOngoing`); that it
still has a body comes to the same (`Activity.Sound.isOngoing_eq`).
-/

namespace DaemonRpc

/-! ## What an activity holds -/

/-- The body that the network hands over if the call is polled: the wait is over, there is an
answer, and the signal has not fired. -/
def Call.arrival? (fired : Option AbortReason) : Call → Option BodySource
  | .sending 0 (.ok response) _ => if fired.isNone then some response.body else none
  | _ => none

/-- Nothing is handed over to a call whose signal has fired. -/
theorem Call.arrival?_of_fired (reason : AbortReason) (call : Call) :
    call.arrival? (some reason) = none := by
  unfold arrival?
  split <;> rfl

/-- The body that the network hands over when a call starts for whose request this comes back. -/
def RequestSpec.arrival? (spec : RequestSpec) (fired : Option AbortReason) (reply : Reply) :
    Option BodySource :=
  Call.arrival? fired
    (.sending reply.delay (reply.response spec) ⟨spec.throwHttpErrors, spec.hook⟩)

namespace Activity

/-- Whether the body that the activity has is tracked. -/
def held? (a : Activity) : Option Bool := a.body?.map (·.tracked)

/-- The body that the network hands over if the activity is polled. -/
def arrival? (fired : Option AbortReason) : Activity → Option BodySource
  | calling call _ => call.arrival? fired
  | _ => none

/-- The call goes on: it waits, or its body is not read, or the reading of its body has not
ended. -/
def isOngoing : Activity → Bool
  | calling _ _ | response _ => true
  | reading _ view _ => view.termination.isNone
  | gathering view _ => view.termination.isNone
  | stream (.bytes view) => view.termination.isNone
  | stream (.records view) | stream (.typed _ view) => view.termination.isNone

/-- The activity goes on by itself when it is polled: a call, or a body that is read as a whole. -/
def isReading : Activity → Bool
  | calling _ _ | reading _ _ _ | gathering _ _ => true
  | response _ | stream _ => false

/-- A stream of which the next item is not there yet. -/
def readsNext : Activity → Bool
  | stream s => s.readsNext
  | calling _ _ | reading _ _ _ | gathering _ _ | response _ => false

/-- A body of which the records are read as ones of a type, item by item. -/
def isTyped : Activity → Bool
  | stream s => s.isTyped
  | calling _ _ | reading _ _ _ | gathering _ _ | response _ => false

/-- A body that is read item by item. -/
def isStream : Activity → Bool
  | stream _ => true
  | calling _ _ | reading _ _ _ | gathering _ _ | response _ => false

/-- The activity has its body unless the reading has ended. -/
def Sound : Activity → Prop
  | calling (.sending _ _ _) _ | response _ => True
  | calling (.refused _ _ view _ _) _ => view.Sound ∧ view.held?.isSome = true
  | reading _ view _ => view.Sound
  | gathering view _ => view.Sound
  | stream s => s.Sound

/-- A call goes on exactly if it is not over. -/
theorem Sound.isOngoing_eq {a : Activity} (h : a.Sound) : a.isOngoing = a.isLive := by
  match a with
  | calling _ _ | response _ => rfl
  | reading _ _ _ | stream (.bytes _) => exact h.symm
  | gathering _ _ | stream (.records _) | stream (.typed _ _) => exact h.ended.symm

theorem readsNext_iff {a : Activity} :
    a.readsNext = true ↔ ∃ s, a = stream s ∧ s.readsNext = true := by
  cases a <;> simp [readsNext]

theorem isStream_iff {a : Activity} : a.isStream = true ↔ ∃ s, a = stream s := by
  cases a <;> simp [isStream]

/-- An activity without a body is over, unless it waits for the answer. -/
theorem isLive_iff {a : Activity} :
    a.isLive = true ↔ a.held?.isSome = true ∨ ∃ call goal, a = calling call goal := by
  match a with
  | calling _ _ => simp [isLive]
  | response _ | reading _ _ _ | gathering _ _ | stream _ => simp [isLive, held?]

/-- A body is handed over only to a call that waits for it. -/
theorem of_arrival? {a : Activity} {fired : Option AbortReason}
    (h : (a.arrival? fired).isSome = true) : a.isLive = true ∧ a.held? = none := by
  match a with
  | calling (.sending _ _ _) _ => exact ⟨rfl, rfl⟩
  | calling (.refused _ _ _ _ _) _ | reading _ _ _ | gathering _ _ | response _ | stream _ =>
    simp [arrival?, Call.arrival?] at h

end Activity

/-! ## Turns -/

/-- The call has failed, or its result is there. -/
def Outcome.isFinal : Outcome → Bool
  | failed _ | done _ => true
  | pending | answered _ | opened _ => false

/-- How many tracked bodies are held. -/
def heldCount (held : Option Bool) : Nat := (held.getD false).toNat

/-- A slot that held `before` and is handed a body may hold `next` after so many bodies were let go
of. A body that is not tracked counts as let go of when it is handed over. -/
structure Balances (before : Option Bool) (arrived : Option BodySource) (next : Option Activity)
    (released : Nat) : Prop where
  sound : ∀ a ∈ next, a.Sound
  /-- The slot holds the body that was there, or that came, or none. -/
  keeps : Keeps (before.or (arrived.map (·.tracked))) (next.bind Activity.held?)
  /-- A call that waits has had no body. -/
  waits : ∀ a ∈ next, a.isLive = true → a.held? = none →
    before.or (arrived.map (·.tracked)) = none
  released : released + heldCount (next.bind Activity.held?) =
    heldCount before + arrived.isSome.toNat

/-- A turn that lets go of everything. -/
theorem balances_none (before : Option Bool) : Balances before none none (heldCount before) where
  sound := by simp
  keeps := .inl rfl
  waits := by simp
  released := by simp [heldCount]

/-- A turn that keeps the body. -/
theorem balances_some {a : Activity} (h : a.Sound) {before : Option Bool} (hheld : a.held? = before)
    (hwaits : a.isLive = true → a.held?.isSome = true) : Balances before none (some a) 0 where
  sound := by simpa using h
  keeps := .inr (by simp [hheld])
  waits := by
    rintro b hb hlive hnone
    obtain rfl := Option.some.inj hb
    simp [hnone] at hwaits
    simp [hwaits] at hlive
  released := by simp [hheld]

/-- A body that is handed over is held from then on, or was let go of if it is not tracked. -/
theorem Balances.arrive {body : BodySource} {next : Option Activity} {released : Nat}
    (h : Balances (some body.tracked) none next released) :
    Balances none (some body) next (released + body.releasesAtOnce) where
  sound := h.sound
  keeps := h.keeps
  waits := h.waits
  released := by
    have hheld := h.released
    -- The body counts once: now if it is not tracked, or else when it is let go of.
    have hone : body.tracked.toNat + body.releasesAtOnce = 1 := by
      cases ht : body.tracked <;> simp [BodySource.releasesAtOnce, ht]
    have hsome : heldCount (some body.tracked) = body.tracked.toNat := rfl
    have hnone : heldCount none = 0 := rfl
    simp only [hsome, hnone, Option.isSome_none, Option.isSome_some, Bool.toNat_false,
      Bool.toNat_true] at hheld ⊢
    omega

theorem toNat_isTracked (v : ByteView) : v.isTracked.toNat = heldCount v.held? := by
  cases h : v.source <;> simp [ByteView.isTracked, ByteView.held?, heldCount, h]

theorem releases_eq (a : Activity) : a.releases = heldCount a.held? := by
  cases h : a.body? <;> simp [Activity.releases, Activity.held?, heldCount, h]

namespace Turn

/-- A result lets go of the body that was read for it. -/
theorem balances_ofResult (view : ByteView) (result : Except Error Content) :
    Balances view.held? none (ofResult view result).next (ofResult view result).released := by
  cases result <;> simpa only [ofResult, toNat_isTracked] using balances_none view.held?

theorem next_ofResult (view : ByteView) (result : Except Error Content) :
    (ofResult view result).next = none := by
  cases result <;> rfl

theorem balances_read {view : ByteView} (h : view.Sound) (fired : Option AbortReason)
    (form : Form) (collected : List UInt8) :
    Balances view.held? none (read fired form view collected).next
      (read fired form view collected).released := by
  rw [read]
  split
  · next w after hcollect =>
    obtain ⟨hheld, hsome, -, hsound⟩ := ByteView.collect_pending hcollect
    exact balances_some (a := .reading form w after) (hsound h) hheld fun _ => hsome
  · exact balances_ofResult view _

theorem balances_gather {view : RecordView} (h : view.Sound) (fired : Option AbortReason)
    (collected : List Json.Value) :
    Balances view.held? none (gather fired view collected).next
      (gather fired view collected).released := by
  rw [gather]
  split
  · next w after hcollect =>
    obtain ⟨hsound, hheld, hsome, -⟩ := h.collect_pending hcollect
    exact balances_some (a := .gathering w after) hsound hheld fun _ => hsome
  · exact balances_ofResult view.bytes _

theorem sound_view (r : Response) : r.view.Sound := rfl

theorem balances_ofResponse (fired : Option AbortReason) (goal : Goal) (r : Response) :
    Balances (some r.body.tracked) none (ofResponse fired goal r).next
      (ofResponse fired goal r).released := by
  cases goal with
  | response => exact balances_some (a := .response r) trivial rfl fun _ => rfl
  | whole form => exact balances_read (sound_view r) fired form []
  | stream kind =>
    obtain ⟨hsound, hheld⟩ := Stream.sound_ofBytes (sound_view r) kind r.transform
    refine balances_some (a := .stream (r.stream kind)) hsound hheld fun _ => ?_
    exact (congrArg Option.isSome hheld).trans rfl

/-- The turn of a call that has come so far, after so many bodies were let go of. -/
def ofCall (fired : Option AbortReason) (goal : Goal) (p : CallProgress × Nat) : Turn :=
  (ofProgress fired goal p.1).andReleased p.2

/-- Reading the rest of the body of an answer with a failure status. -/
theorem balances_readRefused {view : ByteView} (h : view.Sound) (fired : Option AbortReason)
    (goal : Goal) (status : Nat) (headers : Headers) (collected : List UInt8)
    (policy : FailurePolicy) :
    let turn := ofCall fired goal (Call.readRefused fired status headers view collected policy)
    Balances view.held? none turn.next turn.released := by
  rw [Call.readRefused]
  rcases hcollect : view.collect fired collected with ⟨_ | result, w, after⟩
  · obtain ⟨hheld, hsome, -, hsound⟩ := ByteView.collect_pending hcollect
    exact balances_some (a := .calling (.refused status headers w after policy) goal)
      ⟨hsound h, hsome⟩ hheld fun _ => hsome
  · simpa only [ofCall, andReleased, ofProgress, toNat_isTracked, Nat.zero_add] using
      balances_none view.held?

theorem balances_receive (goal : Goal) (r : Response) (policy : FailurePolicy) :
    let turn := ofCall none goal (Call.receive r policy)
    Balances none (some r.body) turn.next turn.released := by
  -- An accepted answer keeps its body; that of a refused one is read for the error.
  by_cases haccepted : (r.isSuccess || !policy.throwHttpErrors) = true
  · have h := (balances_ofResponse none goal r).arrive
    simpa only [Call.receive, haccepted, if_true, ofCall, ofProgress, andReleased,
      Nat.zero_add] using h
  · have hview : ({ source := some r.body } : ByteView).Sound := rfl
    have h : Balances (some r.body.tracked) none _ _ :=
      balances_readRefused hview none goal r.status r.headers [] policy
    simpa only [Call.receive, haccepted, if_false, Bool.false_eq_true, ofCall, andReleased,
      Nat.add_assoc] using h.arrive

/-- A call that goes on waiting. -/
theorem balances_waiting (delay : Nat) (outcome : Except Error Response) (policy : FailurePolicy)
    (goal : Goal) :
    Balances none none (some (.calling (.sending delay outcome policy) goal)) 0 where
  sound := by
    rintro a ha
    obtain rfl := Option.some.inj ha
    trivial
  keeps := .inl rfl
  waits := fun _ _ _ _ => rfl
  released := rfl

theorem balances_call {call : Call} {goal : Goal} (h : (Activity.calling call goal).Sound)
    (fired : Option AbortReason) :
    let turn := ofCall fired goal (call.poll fired)
    Balances (Activity.calling call goal).held? (call.arrival? fired) turn.next turn.released := by
  -- A call that waits has no body, and is handed one only if it is not stopped before.
  match call, fired with
  | .refused status headers view collected policy, fired =>
    exact balances_readRefused h.1 fired goal status headers collected policy
  | .sending 0 (.ok r) policy, some reason => exact balances_none none
  | .sending 0 (.error e) policy, some reason => exact balances_none none
  | .sending (delay + 1) outcome policy, some reason => exact balances_none none
  | .sending (delay + 1) outcome policy, none =>
    exact balances_waiting delay outcome policy goal
  | .sending 0 (.error e) policy, none => exact balances_none none
  | .sending 0 (.ok r) policy, none => exact balances_receive goal r policy

/-- Polling an activity. -/
theorem balances_ofActivity {a : Activity} (h : a.Sound) (fired : Option AbortReason) :
    let turn := ofActivity fired a
    Balances a.held? (a.arrival? fired) turn.next turn.released := by
  match a with
  | .calling call goal => exact balances_call h fired
  | .reading form view collected => exact balances_read h fired form collected
  | .gathering view collected => exact balances_gather h fired collected
  | .response r => exact balances_some h rfl fun _ => rfl
  | .stream s => exact balances_some h rfl fun hlive => Option.isSome_map.trans hlive

theorem balances_start (fired : Option AbortReason) (spec : RequestSpec) (requestId : String)
    (goal : Goal) (transport : Transport) :
    let departure := Call.start fired spec requestId transport
    let turn := (ofProgress fired goal departure.progress).andReleased departure.released
    Balances none (spec.arrival? fired (transport.reply (spec.outgoing requestId))) turn.next
      turn.released := by
  generalize hreply : transport.reply (spec.outgoing requestId) = reply
  cases fired with
  | some reason =>
    have hnone : spec.arrival? (some reason) reply = none := Call.arrival?_of_fired ..
    rw [hnone]
    exact balances_none none
  | none =>
    simp only [Call.start, hreply, RequestSpec.arrival?]
    have hsending : (Activity.calling (.sending reply.delay (reply.response spec)
        ⟨spec.throwHttpErrors, spec.hook⟩) goal).Sound := trivial
    exact balances_call hsending none

/-- Reading nothing comes to an end. -/
theorem next_read_of_closed {view : ByteView} (hclosed : view.held? = none)
    (fired : Option AbortReason) (form : Form) (collected : List UInt8) :
    (read fired form view collected).next = none := by
  rcases hcollect : view.collect fired collected with ⟨_ | result, w, after⟩
  · obtain ⟨hheld, hsome, -, -⟩ := ByteView.collect_pending hcollect
    simp [hheld, hclosed] at hsome
  · simp [read, hcollect, next_ofResult]

/-- Gathering nothing comes to an end. -/
theorem next_gather_of_closed {view : RecordView} (h : view.Sound) (hclosed : view.held? = none)
    (fired : Option AbortReason) (collected : List Json.Value) :
    (gather fired view collected).next = none := by
  rcases hcollect : view.collect fired collected with ⟨_ | result, w, after⟩
  · obtain ⟨-, hheld, hsome, -⟩ := h.collect_pending hcollect
    simp [hheld, hclosed] at hsome
  · simp [gather, hcollect, next_ofResult]

/-- A call that is over stays so. -/
theorem next_of_over {a : Activity} (h : a.Sound) (hover : a.isLive = false)
    (fired : Option AbortReason) : (ofActivity fired a).next.any (·.isLive) = false := by
  -- What is over has no body, and reading nothing comes to an end at once.
  have hclosed : a.held? = none := by
    rw [← Option.not_isSome_iff_eq_none]
    intro hsome
    simp [Activity.isLive_iff.2 (.inl hsome)] at hover
  match a with
  | .calling _ _ | .response _ => simp [Activity.isLive, Activity.body?] at hover
  | .reading form view collected =>
    rw [ofActivity, next_read_of_closed hclosed]
    rfl
  | .gathering view collected =>
    rw [ofActivity, next_gather_of_closed h hclosed]
    rfl
  | .stream _ => exact hover

/-- A call, and a body that is read as a whole, are over after a turn in which their signal has
fired. -/
theorem next_of_fired {a : Activity} (h : a.Sound) (reason : AbortReason)
    (hreads : a.isReading = true) : (ofActivity (some reason) a).next = none := by
  match a with
  | .calling (.sending 0 (.ok _) _) _ | .calling (.sending 0 (.error _) _) _
  | .calling (.sending (_ + 1) _ _) _ => rfl
  | .calling (.refused status headers view collected policy) goal =>
    rcases hcollect : view.collect (some reason) collected with ⟨_ | result, w, after⟩
    · simpa using (ByteView.collect_pending hcollect).2.2.1
    · simp [ofActivity, Call.poll, Call.readRefused, hcollect, ofProgress, andReleased]
  | .reading form view collected =>
    rcases hcollect : view.collect (some reason) collected with ⟨_ | result, w, after⟩
    · simpa using (ByteView.collect_pending hcollect).2.2.1
    · simp [ofActivity, read, hcollect, next_ofResult]
  | .gathering view collected =>
    rcases hcollect : view.collect (some reason) collected with ⟨_ | result, w, after⟩
    · simpa using (RecordView.Sound.collect_pending h hcollect).2.2.2
    · simp [ofActivity, gather, hcollect, next_ofResult]
  | .response _ | .stream _ => simp [Activity.isReading] at hreads

/-! ## Last turns -/

/-- A failure and a result end a turn for good. -/
theorem next_read_of_isFinal {fired : Option AbortReason} {form : Form} {view : ByteView}
    {collected : List UInt8} (h : (read fired form view collected).outcome.isFinal = true) :
    (read fired form view collected).next = none := by
  rw [read] at h ⊢
  split at h
  · simp [Outcome.isFinal] at h
  · exact next_ofResult view _

theorem next_gather_of_isFinal {fired : Option AbortReason} {view : RecordView}
    {collected : List Json.Value} (h : (gather fired view collected).outcome.isFinal = true) :
    (gather fired view collected).next = none := by
  rw [gather] at h ⊢
  split at h
  · simp [Outcome.isFinal] at h
  · exact next_ofResult view.bytes _

theorem next_ofCall_of_isFinal {fired : Option AbortReason} {goal : Goal}
    {p : CallProgress × Nat} (h : (ofCall fired goal p).outcome.isFinal = true) :
    (ofCall fired goal p).next = none := by
  obtain ⟨progress, released⟩ := p
  cases progress with
  | pending call => simp [ofCall, ofProgress, andReleased, Outcome.isFinal] at h
  | failed e => rfl
  | answered r =>
    cases goal with
    | response | stream => simp [ofCall, ofProgress, ofResponse, andReleased, Outcome.isFinal] at h
    | whole form => exact next_read_of_isFinal h

/-- Nothing is left after the last turn. -/
theorem next_of_isFinal {fired : Option AbortReason} {a : Activity}
    (h : (ofActivity fired a).outcome.isFinal = true) : (ofActivity fired a).next = none := by
  match a with
  | .calling call goal => exact next_ofCall_of_isFinal (p := call.poll fired) h
  | .reading _ _ _ => exact next_read_of_isFinal h
  | .gathering _ _ => exact next_gather_of_isFinal h
  | .response _ | .stream _ => simp [ofActivity, Outcome.isFinal] at h

end Turn

/-! ## Other changes of a slot -/

/-- A stream that begins to read a body has it. -/
theorem balances_ofBytes {view : ByteView} (h : view.Sound) (hopen : view.held?.isSome = true)
    (kind : StreamKind) (transform : Option RecordTransform) :
    Balances view.held? none (some (.stream (.ofBytes kind view transform))) 0 := by
  obtain ⟨hsound, hheld⟩ := Stream.sound_ofBytes h kind transform
  exact balances_some (a := .stream (.ofBytes kind view transform)) hsound hheld fun _ =>
    (congrArg Option.isSome hheld).trans hopen

/-- A stream that was asked keeps its body or has let go of it. -/
theorem balances_ask {before after : Stream} (hsound : after.Sound)
    (hkeeps : Keeps before.held? after.held?) :
    Balances before.held? none (some (.stream after))
      (before.source.isTracked.toNat - after.source.isTracked.toNat) where
  sound := by
    rintro a ha
    obtain rfl := Option.some.inj ha
    exact hsound
  keeps := by
    rw [Option.map_none, Option.or_none]
    exact hkeeps
  waits := by
    rintro a ha hlive hnone
    obtain rfl := Option.some.inj ha
    simp [Activity.isLive_iff, hnone] at hlive
  released := by
    -- Nothing is taken: what is held after was held before.
    have hle : heldCount after.held? ≤ heldCount before.held? := by
      rcases hkeeps with hnone | hsame
      · simp [hnone, heldCount]
      · exact Nat.le_of_eq (congrArg heldCount hsame)
    rw [toNat_isTracked, toNat_isTracked]
    exact Nat.sub_add_cancel hle

/-- What begins to be read as a whole is what was held. -/
theorem beginRead_spec {form : Form} {a b : Activity} (h : a.Sound)
    (hbegin : Session.beginRead form a = some b) :
    b.Sound ∧ b.held? = a.held? ∧ b.isLive = a.isLive ∧ ∀ fired, b.arrival? fired = none := by
  match a with
  | .response r =>
    obtain rfl := Option.some.inj hbegin
    exact ⟨Turn.sound_view r, rfl, rfl, fun _ => rfl⟩
  | .stream (.bytes view) | .stream (.records view) =>
    obtain rfl := Option.some.inj hbegin
    exact ⟨h, rfl, rfl, fun _ => rfl⟩
  | .stream (.typed _ _) | .calling _ _ | .reading _ _ _ | .gathering _ _ =>
    simp [Session.beginRead] at hbegin

/-- What begins to be read as a whole goes on by itself. -/
theorem isReading_of_beginRead {form : Form} {a b : Activity}
    (hbegin : Session.beginRead form a = some b) : b.isReading = true := by
  match a with
  | .response _ | .stream (.bytes _) | .stream (.records _) =>
    obtain rfl := Option.some.inj hbegin
    rfl
  | .stream (.typed _ _) | .calling _ _ | .reading _ _ _ | .gathering _ _ =>
    simp [Session.beginRead] at hbegin

end DaemonRpc

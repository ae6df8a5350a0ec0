import DaemonRpc.Proofs.Session.Slots
import DaemonRpc.Proofs.Session.Turns

/-!
# The calls of a session

A call is known by its key: the slot in which it was started and its number there. It goes on as
long as it is the call in its slot and what the slot holds has not come to an end
(`Session.isOngoing`, or `Session.isLive` by the body that is left).

* `isLive_of_step`: a call that is over stays so, whatever the step;
* `over_of_drops`, `over_of_isFinal`: a call is over once it was dropped or gave its last answer;
* `over_of_looks`: a call whose signal has fired is over after a step that looks at its body.
-/

namespace DaemonRpc

/-- The value at one key replaced. -/
def replace {α : Type} (f : CallKey → α) (key : CallKey) (a : α) : CallKey → α :=
  fun k => if k = key then a else f k

@[simp]
theorem replace_self {α : Type} (f : CallKey → α) (key : CallKey) (a : α) :
    replace f key a key = a := if_pos rfl

theorem replace_of_ne {α : Type} (f : CallKey → α) {key k : CallKey} (a : α) (h : k ≠ key) :
    replace f key a k = f k := if_neg h

@[simp]
theorem replace_replace {α : Type} (f : CallKey → α) (key : CallKey) (a b : α) :
    replace (replace f key a) key b = replace f key b := by
  ext k : 1
  by_cases h : k = key <;> simp [replace, h]

/-- The slot of which a step drops what is there, perhaps to start something else. -/
def SessionStep.drops? : SessionStep → Option String
  | .call name _ _ _ _ | .command name _ _ _ | .loose name _ | .drop name => some name
  | .poll _ | .openBody _ _ | .read _ _ | .next _ | .drain _ | .abort _ | .advance _ => none

/-- The answer is the last of a call: its failure or its result, or an error or the end of what it
reads item by item. A record that does not fit its type does not end a stream. -/
def SessionAnswer.isFinal (typed : Bool) : SessionAnswer → Bool
  | .outcome o => o.isFinal
  | .item p => if typed then p.isFinished else p.isEnd
  | .items answers => answers.getLast?.any (·.isFinished)
  | .done | .opened _ _ => false

namespace Session

/-! ## Calls by key -/

/-- The call of a key is the one in its slot, and is not over. -/
def isLive (s : Session) (key : CallKey) : Bool :=
  (s.slot key.1).serial == key.2 && (s.slot key.1).activity.any (·.isLive)

/-- Whether the body that the call of a key holds is tracked. -/
def held? (s : Session) (key : CallKey) : Option Bool :=
  if (s.slot key.1).serial = key.2 then (s.slot key.1).activity.bind (·.held?) else none

/-- The key of the next call in a slot. -/
def nextKey (s : Session) (name : String) : CallKey := (name, (s.slot name).serial + 1)

@[simp]
theorem isLive_key (s : Session) (name : String) :
    s.isLive (s.key name) = (s.slot name).activity.any (·.isLive) := by
  simp [isLive, key]

@[simp]
theorem held?_key (s : Session) (name : String) :
    s.held? (s.key name) = (s.slot name).activity.bind (·.held?) := by
  simp [held?, key]

/-- Putting something else into a slot changes the call in it. -/
theorem isLive_settle (s : Session) (name : String) (next : Option Activity) (released : Nat) :
    (s.settle name next released).isLive =
      replace s.isLive (s.key name) (next.any (·.isLive)) := by
  ext ⟨other, i⟩ : 1
  by_cases ho : other = name
  · subst ho
    -- The call with this number, or one that had the slot before.
    by_cases hi : i = (s.slot other).serial
    · simp [isLive, replace, key, hi]
    · simp [isLive, replace, key, hi, beq_false_of_ne (Ne.symm hi)]
  · simp [isLive, replace, key, slot_settle, ho]

theorem held?_settle (s : Session) (name : String) (next : Option Activity) (released : Nat) :
    (s.settle name next released).held? =
      replace s.held? (s.key name) (next.bind (·.held?)) := by
  ext ⟨other, i⟩ : 1
  by_cases ho : other = name
  · subst ho
    by_cases hi : i = (s.slot other).serial
    · simp [held?, replace, key, hi]
    · simp [held?, replace, key, hi, Ne.symm hi]
  · simp [held?, replace, key, slot_settle, ho]

/-- Preparing a slot for another call is dropping the call in it, as far as calls go. -/
theorem isLive_renew (s : Session) (name : String) :
    (s.renew name).isLive = (s.drop name).isLive := by
  ext ⟨other, i⟩ : 1
  rw [drop, isLive_settle]
  by_cases ho : other = name
  · subst ho
    by_cases hi : i = (s.slot other).serial
    · simp [isLive, slot_renew, replace, key, hi]
    · simp [isLive, slot_renew, replace, key, hi, beq_false_of_ne (Ne.symm hi)]
  · simp [isLive, slot_renew, replace, key, ho]

theorem held?_renew (s : Session) (name : String) :
    (s.renew name).held? = (s.drop name).held? := by
  ext ⟨other, i⟩ : 1
  rw [drop, held?_settle]
  by_cases ho : other = name
  · subst ho
    by_cases hi : i = (s.slot other).serial
    · simp [held?, slot_renew, replace, key, hi]
    · simp [held?, slot_renew, replace, key, hi, Ne.symm hi]
  · simp [held?, slot_renew, replace, key, ho]

/-- What the slots hold is sound. -/
def Sound (s : Session) : Prop := ∀ name, ∀ a ∈ (s.slot name).activity, a.Sound

/-- The call of a key is the one in its slot, and goes on. -/
def isOngoing (s : Session) (key : CallKey) : Bool :=
  (s.slot key.1).serial == key.2 && (s.slot key.1).activity.any (·.isOngoing)

/-- A call goes on exactly if it is not over. -/
theorem Sound.isOngoing_eq {s : Session} (h : s.Sound) : s.isOngoing = s.isLive := by
  ext key : 1
  have hactivity : (s.slot key.1).activity.any (·.isOngoing) =
      (s.slot key.1).activity.any (·.isLive) := by
    cases ha : (s.slot key.1).activity with
    | none => rfl
    | some a => exact (h key.1 a ha).isOngoing_eq
  rw [isOngoing, hactivity, isLive]

/-! ## Calls that are over -/

/-- A call that was started has not the next key of any slot. -/
theorem ne_nextKey {s : Session} {key : CallKey} (h : key.2 ≤ (s.slot key.1).serial)
    (name : String) : key ≠ s.nextKey name := by
  rintro rfl
  exact Nat.not_succ_le_self _ h

theorem isLive_settle_of_ne {s : Session} {name : String} {key : CallKey} (h : key ≠ s.key name)
    (next : Option Activity) (released : Nat) :
    (s.settle name next released).isLive key = s.isLive key := by
  rw [isLive_settle, replace_of_ne _ _ h]

/-- Putting something else into a slot revives no call if what is put there is over already. -/
theorem isLive_of_settle {s : Session} {name : String} {next : Option Activity} {released : Nat}
    (hnext : next.any (·.isLive) = true → s.isLive (s.key name) = true) {key : CallKey}
    (h : (s.settle name next released).isLive key = true) : s.isLive key = true := by
  -- Only the call in the slot can have changed.
  by_cases hkey : key = s.key name
  · subst hkey
    rw [isLive_settle, replace_self] at h
    exact hnext h
  · rwa [isLive_settle_of_ne hkey] at h

/-- A slot that is prepared for another call has no call that goes on. -/
theorem isLive_renew_key (s : Session) (name : String) :
    (s.renew name).isLive (s.key name) = false := by
  rw [isLive_renew, drop, isLive_settle, replace_self]
  rfl

/-- Preparing a slot revives no call. -/
theorem isLive_of_renew {s : Session} {name : String} {key : CallKey}
    (h : (s.renew name).isLive key = true) : s.isLive key = true := by
  rw [isLive_renew] at h
  exact isLive_of_settle (by simp) h

/-- Starting a call changes the calls that were started before only by preparing the slot. -/
theorem isLive_call {s : Session} {key : CallKey} (hkey : key.2 ≤ (s.slot key.1).serial)
    (name : String) (resource : Except Error Resource) (options : RequestOptions) (goal : Goal)
    (transport : Transport) :
    (s.call name resource options goal transport).1.isLive key = (s.renew name).isLive key := by
  simp only [call, take]
  split
  · rfl
  · next spec _ =>
    -- What is put into the slot is put there under the next key.
    have hne : key ≠ ((s.renew name).compose name spec.signal spec.timeout).key name := by
      simpa [Session.key, slot_renew, nextKey] using ne_nextKey hkey name
    exact isLive_settle_of_ne hne _ _

/-- Beginning to read a body changes the calls that were started before only by preparing the
slot. -/
theorem isLive_openLoose {s : Session} {key : CallKey} (hkey : key.2 ≤ (s.slot key.1).serial)
    (name : String) (body : LooseBody) :
    (s.openLoose name body).1.isLive key = (s.renew name).isLive key := by
  have hne : key ≠ (s.renew name).key name := by
    simpa [Session.key, slot_renew, nextKey] using ne_nextKey hkey name
  simp only [openLoose]
  split
  · exact isLive_settle_of_ne hne _ _
  · next controller timeout _ =>
    exact isLive_settle_of_ne (s := (s.renew name).compose name controller timeout) hne _ _

/-- A stream that has its body had it before it was asked. -/
theorem isLive_of_keeps {before after : Stream} (h : Keeps before.held? after.held?)
    (hlive : (Activity.stream after).isLive = true) : (Activity.stream before).isLive = true := by
  rw [Activity.isLive_iff] at hlive ⊢
  rcases hlive with hsome | ⟨_, _, heq⟩
  · left
    show before.held?.isSome = true
    rw [← h.eq_of_isSome hsome]
    exact hsome
  · simp at heq

/-- Asking a stream revives no call. -/
theorem isLive_of_ask {α : Type} {s : Session} {name : String}
    (question : Stream → Option AbortReason → α × Stream) (answer : α → SessionAnswer)
    (hquestion : ∀ stream, (s.slot name).activity = some (.stream stream) →
      Keeps stream.held? (question stream (s.fired name)).2.held?) {key : CallKey}
    (h : (s.ask name question answer).1.isLive key = true) : s.isLive key = true := by
  rw [ask] at h
  split at h
  · next stream hactivity =>
    refine isLive_of_settle (fun hnext => ?_) h
    rw [isLive_key, hactivity]
    exact isLive_of_keeps (hquestion stream hactivity) hnext
  · exact h

/-- What a slot holds revives no call when it takes a turn. -/
theorem isLive_of_take {s : Session} {name : String} {a b : Activity}
    (hactivity : (s.slot name).activity = some a) (hsound : b.Sound) (hlive : b.isLive = a.isLive)
    {key : CallKey}
    (h : (s.take name (Turn.ofActivity (s.fired name) b)).1.isLive key = true) :
    s.isLive key = true := by
  refine isLive_of_settle (fun hnext => ?_) h
  rw [isLive_key, hactivity, Option.any_some, ← hlive]
  cases hb : b.isLive with
  | true => rfl
  | false =>
    rw [Turn.next_of_over hsound hb] at hnext
    exact hnext

/-- A call that goes on after a step went on before. -/
theorem isLive_of_step {s : Session} (hs : s.Sound) {key : CallKey}
    (hkey : key.2 ≤ (s.slot key.1).serial) {step : SessionStep}
    (h : (s.step step).1.isLive key = true) : s.isLive key = true := by
  -- A step that starts something prepares the slot first; all others let the activity take a turn.
  cases step with
  | call name resource options goal transport =>
    exact isLive_of_renew ((isLive_call hkey name resource options goal transport).symm.trans h)
  | command name command options transport =>
    rw [step_command, step_call] at h
    exact isLive_of_renew ((isLive_call hkey name _ _ _ _).symm.trans h)
  | loose name body => exact isLive_of_renew ((isLive_openLoose hkey name body).symm.trans h)
  | poll name =>
    simp only [Session.step] at h
    split at h
    · exact h
    · next a hactivity => exact isLive_of_take hactivity (hs name a hactivity) rfl h
  | openBody name kind =>
    simp only [Session.step] at h
    split at h
    · next r hactivity =>
      refine isLive_of_settle (fun _ => ?_) h
      rw [isLive_key, hactivity]
      rfl
    · exact h
  | read name form =>
    simp only [Session.step] at h
    split at h
    · exact h
    · next b hbegin =>
      obtain ⟨a, hactivity, hbegin⟩ := Option.bind_eq_some_iff.1 hbegin
      obtain ⟨hsound, -, hlive, -⟩ := beginRead_spec (hs name a hactivity) hbegin
      exact isLive_of_take hactivity hsound hlive h
  | next name =>
    refine isLive_of_ask Stream.poll SessionAnswer.item (fun stream hactivity => ?_) h
    exact (Stream.Sound.poll (hs name _ hactivity) (s.fired name)).2.1
  | drain name =>
    refine isLive_of_ask Stream.drain SessionAnswer.items (fun stream hactivity => ?_) h
    exact (Stream.Sound.drain (hs name _ hactivity) (s.fired name)).2.1
  | drop name => exact isLive_of_settle (by simp) h
  | abort c | advance time => exact h

/-! ## Calls that end -/

/-- A step that drops what is in a slot ends its call. -/
theorem over_of_drops {s : Session} {name : String} {step : SessionStep}
    (hdrops : step.drops? = some name) : (s.step step).1.isLive (s.key name) = false := by
  cases step with
  | call other resource options goal transport =>
    obtain rfl := Option.some.inj hdrops
    exact (isLive_call (Nat.le_refl _) ..).trans (isLive_renew_key s other)
  | command other command options transport =>
    obtain rfl := Option.some.inj hdrops
    rw [step_command, step_call]
    exact (isLive_call (Nat.le_refl _) ..).trans (isLive_renew_key s other)
  | loose other body =>
    obtain rfl := Option.some.inj hdrops
    exact (isLive_openLoose (Nat.le_refl _) other body).trans (isLive_renew_key s other)
  | drop other =>
    obtain rfl := Option.some.inj hdrops
    simp [Session.step, drop, isLive_settle]
  | poll | openBody | read | next | drain | abort | advance => simp [SessionStep.drops?] at hdrops

theorem isLive_key_of_none {s : Session} {name : String} (h : (s.slot name).activity = none) :
    s.isLive (s.key name) = false := by
  rw [isLive_key, h]
  rfl

/-- A slot that holds a stream without its body has no call that goes on. -/
theorem isLive_key_of_stream {s : Session} {name : String} {stream : Stream}
    (h : (s.slot name).activity = some (.stream stream)) (hheld : stream.held? = none) :
    s.isLive (s.key name) = false := by
  have hactivity : (Activity.stream stream).held? = none := hheld
  rw [isLive_key, h, Option.any_some, ← Bool.not_eq_true, Activity.isLive_iff]
  simp [hactivity]

theorem slot_take_self (s : Session) (name : String) (turn : Turn) :
    ((s.take name turn).1.slot name).activity = turn.next := by
  rw [take, slot_settle_self]

/-- A call that fails or has its result at once leaves nothing in its slot. -/
theorem activity_call_of_isFinal {s : Session} {name : String} {resource : Except Error Resource}
    {options : RequestOptions} {goal : Goal} {transport : Transport} {typed : Bool}
    (h : (s.call name resource options goal transport).2.1.isFinal typed = true) :
    ((s.call name resource options goal transport).1.slot name).activity = none := by
  simp only [call] at h ⊢
  split at h
  · rw [slot_renew, if_pos rfl]
  · rw [slot_take_self]
    exact Turn.next_ofCall_of_isFinal (p := (_, _)) h

/-- A stream that has let go of its body with its last answer is over. -/
theorem over_of_ask_isFinal {α : Type} {s : Session} {name : String} {typed : Bool}
    (question : Stream → Option AbortReason → α × Stream) (answer : α → SessionAnswer)
    (hlast : ∀ stream, (s.slot name).activity = some (.stream stream) →
      (answer (question stream (s.fired name)).1).isFinal typed = true →
        (question stream (s.fired name)).2.held? = none)
    (hfinal : (s.ask name question answer).2.isFinal typed = true) :
    (s.ask name question answer).1.isLive ((s.ask name question answer).1.key name) = false := by
  rw [ask] at hfinal ⊢
  split at hfinal
  · next stream hactivity =>
    exact isLive_key_of_stream (by rw [slot_settle_self]) (hlast stream hactivity hfinal)
  · simp [SessionAnswer.isFinal] at hfinal

/-- A call is over after its last answer. -/
theorem over_of_isFinal {s : Session} (hs : s.Sound) {name : String} {step : SessionStep}
    (hslot : step.slot? = some name)
    (hfinal : (s.step step).2.1.isFinal ((s.slot name).activity.any (·.isTyped)) = true) :
    (s.step step).1.isLive ((s.step step).1.key name) = false := by
  cases step with
  | call other resource options goal transport =>
    obtain rfl := Option.some.inj hslot
    exact isLive_key_of_none (activity_call_of_isFinal hfinal)
  | command other command options transport =>
    obtain rfl := Option.some.inj hslot
    rw [step_command, answer_call] at hfinal
    rw [step_command, step_call]
    exact isLive_key_of_none (activity_call_of_isFinal hfinal)
  | loose other body => simp [Session.step, openLoose, SessionAnswer.isFinal] at hfinal
  | poll other =>
    obtain rfl := Option.some.inj hslot
    simp only [Session.step] at hfinal ⊢
    cases hactivity : (s.slot other).activity with
    | none => simp [hactivity, SessionAnswer.isFinal] at hfinal
    | some a =>
      simp only [hactivity] at hfinal ⊢
      exact isLive_key_of_none ((slot_take_self s other _).trans (Turn.next_of_isFinal hfinal))
  | openBody other kind =>
    simp only [Session.step] at hfinal
    split at hfinal <;> simp [SessionAnswer.isFinal, Outcome.isFinal] at hfinal
  | read other form =>
    obtain rfl := Option.some.inj hslot
    simp only [Session.step] at hfinal ⊢
    cases hbegin : (s.slot other).activity.bind (beginRead form) with
    | none => simp [hbegin, SessionAnswer.isFinal] at hfinal
    | some b =>
      simp only [hbegin] at hfinal ⊢
      exact isLive_key_of_none ((slot_take_self s other _).trans (Turn.next_of_isFinal hfinal))
  | next other =>
    obtain rfl := Option.some.inj hslot
    refine over_of_ask_isFinal Stream.poll .item (fun stream hactivity hlast => ?_) hfinal
    have hsound := hs other _ hactivity
    rw [hactivity] at hlast
    cases htyped : stream.isTyped with
    | false =>
      apply Stream.Sound.held?_of_isEnd hsound htyped
      simpa [SessionAnswer.isFinal, Activity.isTyped, htyped] using hlast
    | true =>
      -- A record that does not fit its type is answered as a failure while the body goes on.
      refine (Stream.Sound.poll hsound _).2.2.2 (Poll.isFinished_iff.1 ?_)
      simpa [SessionAnswer.isFinal, Activity.isTyped, htyped] using hlast
  | drain other =>
    obtain rfl := Option.some.inj hslot
    refine over_of_ask_isFinal Stream.drain .items (fun stream hactivity hlast => ?_) hfinal
    exact (Stream.Sound.drain (hs other _ hactivity) _).2.2.2 hlast
  | drop | abort | advance => simp [Session.step, SessionAnswer.isFinal] at hfinal

/-! ## Calls whose signal has fired -/

/-- The slot whose call finds out in a step whether its signal has fired, as it looks for the answer
or at the body. -/
def looks? (s : Session) : SessionStep → Option String
  | .poll name => if (s.slot name).activity.any (·.isReading) then some name else none
  | .read name form => ((s.slot name).activity.bind (beginRead form)).map fun _ => name
  | .next name => if (s.slot name).activity.any (·.readsNext) then some name else none
  | .drain name => if (s.slot name).activity.any (·.isStream) then some name else none
  | .call _ _ _ _ _ | .command _ _ _ _ | .loose _ _ | .openBody _ _ | .drop _ | .abort _
  | .advance _ => none

/-- What takes its last turn is over. -/
theorem over_of_take {s : Session} {name : String} {turn : Turn} (h : turn.next = none) :
    (s.take name turn).1.isLive (s.key name) = false := by
  rw [take, isLive_settle, replace_self, h]
  rfl

/-- A stream that let go of its body when it was asked is over. -/
theorem over_of_ask {α : Type} {s : Session} {name : String} {stream : Stream}
    (hactivity : (s.slot name).activity = some (.stream stream))
    (question : Stream → Option AbortReason → α × Stream) (answer : α → SessionAnswer)
    (h : (question stream (s.fired name)).2.held? = none) :
    (s.ask name question answer).1.isLive (s.key name) = false := by
  have hheld : (Activity.stream (question stream (s.fired name)).2).held? = none := h
  rw [ask, hactivity]
  rw [isLive_settle, replace_self, Option.any_some, ← Bool.not_eq_true, Activity.isLive_iff]
  simp [hheld]

/-- A call whose signal has fired is over after a step in which it finds out. -/
theorem over_of_looks {s : Session} (hs : s.Sound) {name : String}
    (hfired : (s.fired name).isSome = true) {step : SessionStep}
    (hlooks : s.looks? step = some name) : (s.step step).1.isLive (s.key name) = false := by
  obtain ⟨reason, hreason⟩ := Option.isSome_iff_exists.1 hfired
  cases step with
  | poll other =>
    obtain ⟨hreads, hname⟩ := Option.ite_none_right_eq_some.1 hlooks
    obtain rfl := Option.some.inj hname
    obtain ⟨a, hactivity, hreads⟩ := (Option.any_eq_true _ _).1 hreads
    simp only [Session.step, hactivity, hreason]
    exact over_of_take (Turn.next_of_fired (hs other a hactivity) reason hreads)
  | read other form =>
    obtain ⟨b, hbegin, rfl⟩ := Option.map_eq_some_iff.1 hlooks
    obtain ⟨a, hactivity, hbegun⟩ := Option.bind_eq_some_iff.1 hbegin
    -- What begins to be read is polled at once.
    have hspec := beginRead_spec (hs other a hactivity) hbegun
    simp only [Session.step, hbegin, hreason]
    exact over_of_take (Turn.next_of_fired hspec.1 reason (isReading_of_beginRead hbegun))
  | next other =>
    obtain ⟨hreads, hname⟩ := Option.ite_none_right_eq_some.1 hlooks
    obtain rfl := Option.some.inj hname
    obtain ⟨a, hactivity, hreads⟩ := (Option.any_eq_true _ _).1 hreads
    obtain ⟨stream, rfl, hreads⟩ := Activity.readsNext_iff.1 hreads
    apply over_of_ask hactivity Stream.poll SessionAnswer.item
    rw [hreason]
    exact Stream.Sound.poll_of_fired (hs other _ hactivity) hreads reason
  | drain other =>
    obtain ⟨hstream, hname⟩ := Option.ite_none_right_eq_some.1 hlooks
    obtain rfl := Option.some.inj hname
    obtain ⟨a, hactivity, hstream⟩ := (Option.any_eq_true _ _).1 hstream
    obtain ⟨stream, rfl⟩ := Activity.isStream_iff.1 hstream
    apply over_of_ask hactivity Stream.drain SessionAnswer.items
    exact (Stream.Sound.drain (hs other _ hactivity) (s.fired other)).2.2.1 hfired
  | call | command | loose | openBody | drop | abort | advance => simp [looks?] at hlooks

end Session

end DaemonRpc

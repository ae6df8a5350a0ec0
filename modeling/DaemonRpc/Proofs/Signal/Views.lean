import DaemonRpc.Proofs.Signal.Stores

/-!
# What a store shows of its signals

A signal shows the reason with which it fired (`Store.reason?`) and what is attached to it
(`Store.listeners`), a merged signal also whether its timer runs and whether it was cleared
(`Store.hasTimer`, `Store.isCleared`). Here is what each operation of a store does to these views.
-/

namespace DaemonRpc.Signal

/-- The number of a listener, if it is a call. -/
def Listener.id? {κ : Type} : Listener κ → Option Nat
  | .call id _ _ => some id
  | .relay _ => none

namespace Store

variable {κ : Type} [DecidableEq κ] {s : Store κ}

/-- What is attached to a signal. -/
def listeners (s : Store κ) (name : Name κ) : List (Listener κ) :=
  ((s.state? name).map (·.listeners)).getD []

/-- How many listeners of a signal got a number. -/
def issued (s : Store κ) (name : Name κ) : Nat := ((s.state? name).map (·.issued)).getD 0

/-- The numbers of the calls that are attached to a signal. -/
def calls (s : Store κ) (name : Name κ) : List Nat := (s.listeners name).filterMap Listener.id?

/-- There is such a signal. -/
def has (s : Store κ) (name : Name κ) : Bool := (s.state? name).isSome

/-- A merged signal was cleared. -/
def isCleared (s : Store κ) (key : κ) : Bool := (s.merge? key).any (·.cleared)

theorem listenerCount_eq (s : Store κ) (name : Name κ) :
    s.listenerCount name = (s.listeners name).length := by
  rw [listenerCount, listeners]
  cases s.state? name <;> rfl

theorem state?_eq_none_of_not_has {name : Name κ} (h : s.has name = false) :
    s.state? name = none := by
  rwa [has, Option.isSome_eq_false_iff, Option.isNone_iff_eq_none] at h

/-- Nothing is attached to a signal that is not there. -/
theorem listeners_of_not_has {name : Name κ} (h : s.has name = false) :
    s.listeners name = [] := by
  rw [listeners, state?_eq_none_of_not_has h]
  rfl

/-- A signal that is not there has not fired. -/
theorem reason?_of_not_has {name : Name κ} (h : s.has name = false) : s.reason? name = none := by
  rw [reason?, state?_eq_none_of_not_has h]
  rfl

/-- A signal that has fired is there. -/
theorem has_of_reason? {name : Name κ} (h : (s.reason? name).isSome = true) :
    s.has name = true := by
  rw [← Bool.not_eq_false]
  intro hnot
  rw [reason?_of_not_has hnot] at h
  exact Bool.noConfusion h

/-! ## Changing one signal -/

@[simp]
theorem has_change (s : Store κ) (name : Name κ) (f : Entry κ → Entry κ) (other : Name κ) :
    (s.change name f).has other = s.has other := by
  rw [has, state?_change]
  split
  · rw [Option.isSome_map, has]
  · rfl

/-- A change that fires nothing keeps all reasons. -/
theorem reason?_change {f : Entry κ → Entry κ} (hf : KeepsReason f) (s : Store κ)
    (name other : Name κ) : (s.change name f).reason? other = s.reason? other := by
  rw [reason?, state?_change]
  split
  · rw [Option.bind_map]
    exact congrArg (Option.bind _) (funext hf)
  · rfl

theorem listeners_change (s : Store κ) (name : Name κ) (f : Entry κ → Entry κ) (other : Name κ) :
    (s.change name f).listeners other =
      if other = name then ((s.state? other).map fun e => (f e).listeners).getD []
      else s.listeners other := by
  rw [listeners, state?_change]
  split
  · rw [Option.map_map]
    rfl
  · rfl

theorem issued_change (s : Store κ) (name : Name κ) (f : Entry κ → Entry κ) (other : Name κ) :
    (s.change name f).issued other =
      if other = name then ((s.state? other).map fun e => (f e).issued).getD 0
      else s.issued other := by
  rw [issued, state?_change]
  split
  · rw [Option.map_map]
    rfl
  · rfl

/-! ## Firing a signal -/

theorem reason?_markFired {name : Name κ} (h : s.has name = true) (reason : AbortReason)
    (other : Name κ) :
    (s.markFired name reason).reason? other =
      if other = name then some reason else s.reason? other := by
  obtain ⟨e, he⟩ := Option.isSome_iff_exists.1 h
  rw [reason?, markFired, state?_change]
  by_cases ho : other = name
  · rw [if_pos ho, if_pos ho, ho, he]
    rfl
  · rw [if_neg ho, if_neg ho, reason?]

theorem listeners_markFired (s : Store κ) (name : Name κ) (reason : AbortReason)
    (other : Name κ) :
    (s.markFired name reason).listeners other =
      if other = name then [] else s.listeners other := by
  rw [markFired, listeners_change]
  cases s.state? other <;> rfl

@[simp]
theorem issued_markFired (s : Store κ) (name : Name κ) (reason : AbortReason) (other : Name κ) :
    (s.markFired name reason).issued other = s.issued other := by
  rw [markFired, issued_change, issued, ite_self]

@[simp]
theorem has_markFired (s : Store κ) (name : Name κ) (reason : AbortReason) (other : Name κ) :
    (s.markFired name reason).has other = s.has other :=
  s.has_change name _ other

@[simp]
theorem merge?_markFired (s : Store κ) (name : Name κ) (reason : AbortReason) (key : κ) :
    (s.markFired name reason).merge? key = s.merge? key := rfl

/-! ## Attaching calls and relays -/

@[simp]
theorem reason?_attach (s : Store κ) (name : Name κ) (label : String)
    (effects : List (Effect κ)) (other : Name κ) :
    (s.attach name label effects).reason? other = s.reason? other := by
  rw [attach, reason?_change]
  exact fun _ => rfl

/-- A call is attached after the others, under the next number. -/
theorem listeners_attach (s : Store κ) (name : Name κ) (label : String)
    (effects : List (Effect κ)) (other : Name κ) :
    (s.attach name label effects).listeners other = s.listeners other ++
      if other = name ∧ s.has other then [.call (s.issued other) label effects] else [] := by
  rw [attach, listeners_change, listeners, issued, has]
  cases s.state? other <;> by_cases ho : other = name <;> simp [ho]

theorem issued_attach (s : Store κ) (name : Name κ) (label : String)
    (effects : List (Effect κ)) (other : Name κ) :
    (s.attach name label effects).issued other = s.issued other +
      if other = name ∧ s.has other then 1 else 0 := by
  rw [attach, issued_change, issued, has]
  cases s.state? other <;> by_cases ho : other = name <;> simp [ho]

@[simp]
theorem has_attach (s : Store κ) (name : Name κ) (label : String) (effects : List (Effect κ))
    (other : Name κ) : (s.attach name label effects).has other = s.has other :=
  s.has_change name _ other

@[simp]
theorem merge?_attach (s : Store κ) (name : Name κ) (label : String) (effects : List (Effect κ))
    (key : κ) : (s.attach name label effects).merge? key = s.merge? key := rfl

/-! ## Taking a call away -/

@[simp]
theorem reason?_unsubscribe (s : Store κ) (name : Name κ) (id : Nat) (other : Name κ) :
    (s.unsubscribe name id).1.reason? other = s.reason? other := by
  rw [unsubscribe, reason?_change]
  exact fun _ => rfl

theorem listeners_unsubscribe (s : Store κ) (name : Name κ) (id : Nat) (other : Name κ) :
    (s.unsubscribe name id).1.listeners other =
      if other = name then (s.listeners other).filter fun l => !isCall id l
      else s.listeners other := by
  rw [unsubscribe, listeners_change, listeners]
  cases s.state? other <;> rfl

@[simp]
theorem issued_unsubscribe (s : Store κ) (name : Name κ) (id : Nat) (other : Name κ) :
    (s.unsubscribe name id).1.issued other = s.issued other := by
  rw [unsubscribe, issued_change, issued, ite_self]

@[simp]
theorem has_unsubscribe (s : Store κ) (name : Name κ) (id : Nat) (other : Name κ) :
    (s.unsubscribe name id).1.has other = s.has other :=
  s.has_change name _ other

@[simp]
theorem merge?_unsubscribe (s : Store κ) (name : Name κ) (id : Nat) (key : κ) :
    (s.unsubscribe name id).1.merge? key = s.merge? key := rfl

/-! ## Detaching and clearing a merged signal -/

@[simp]
theorem reason?_detach (s : Store κ) (key : κ) (name : Name κ) :
    (s.detach key).reason? name = s.reason? name :=
  s.reason?_clear key name

theorem listeners_detach (s : Store κ) (key : κ) (name : Name κ) :
    (s.detach key).listeners name = (s.listeners name).filter (· ≠ .relay key) := by
  rw [listeners, state?_detach, listeners]
  cases s.state? name <;> rfl

@[simp]
theorem issued_detach (s : Store κ) (key : κ) (name : Name κ) :
    (s.detach key).issued name = s.issued name := by
  rw [issued, state?_detach, Option.map_map]
  rfl

@[simp]
theorem has_detach (s : Store κ) (key : κ) (name : Name κ) :
    (s.detach key).has name = s.has name := by
  rw [has, state?_detach, Option.isSome_map, has]

theorem hasTimer_detach (s : Store κ) (key other : κ) :
    (s.detach key).hasTimer other = (decide (other ≠ key) && s.hasTimer other) := by
  rw [hasTimer, merge?_detach, hasTimer]
  by_cases ho : other = key
  · cases s.merge? other <;> simp [ho]
  · simp [ho]

@[simp]
theorem isCleared_detach (s : Store κ) (key other : κ) :
    (s.detach key).isCleared other = s.isCleared other := by
  rw [isCleared, merge?_detach, isCleared]
  split
  · cases s.merge? other <;> rfl
  · rfl

theorem listeners_clear (s : Store κ) (key : κ) (name : Name κ) :
    (s.clear key).listeners name = (s.listeners name).filter (· ≠ .relay key) :=
  s.listeners_detach key name

@[simp]
theorem issued_clear (s : Store κ) (key : κ) (name : Name κ) :
    (s.clear key).issued name = s.issued name :=
  s.issued_detach key name

@[simp]
theorem has_clear (s : Store κ) (key : κ) (name : Name κ) : (s.clear key).has name = s.has name :=
  s.has_detach key name

theorem hasTimer_clear (s : Store κ) (key other : κ) :
    (s.clear key).hasTimer other = (decide (other ≠ key) && s.hasTimer other) := by
  rw [hasTimer, merge?_clear, hasTimer]
  by_cases ho : other = key
  · cases s.merge? other <;> simp [ho]
  · simp [ho]

theorem isCleared_clear (s : Store κ) (key other : κ) :
    (s.clear key).isCleared other =
      (s.isCleared other || decide (other = key) && (s.merge? other).isSome) := by
  rw [isCleared, merge?_clear, isCleared]
  by_cases ho : other = key
  · cases s.merge? other <;> simp [ho]
  · simp [ho]

/-! ## New signals -/

theorem has_addController (s : Store κ) (n : Nat) (name : Name κ) :
    (s.addController n).has name = (s.has name || decide (name = .controller n)) := by
  rw [has, state?_addController, has]
  cases s.state? name <;> by_cases h : name = .controller n <;> simp [h]

/-- A new controller has not fired. -/
theorem reason?_addController (s : Store κ) (n : Nat) (name : Name κ) :
    (s.addController n).reason? name = s.reason? name := by
  rw [reason?, state?_addController, reason?]
  cases s.state? name <;> by_cases h : name = .controller n <;> simp [h]

theorem listeners_addController (s : Store κ) (n : Nat) (name : Name κ) :
    (s.addController n).listeners name = s.listeners name := by
  rw [listeners, state?_addController, listeners]
  cases s.state? name <;> by_cases h : name = .controller n <;> simp [h]

theorem issued_addController (s : Store κ) (n : Nat) (name : Name κ) :
    (s.addController n).issued name = s.issued name := by
  rw [issued, state?_addController, issued]
  cases s.state? name <;> by_cases h : name = .controller n <;> simp [h]

/-- A relay is attached for each time that a signal is followed, unless some signal has fired. -/
theorem state?_compose (s : Store κ) (key : κ) (sources : List (Name κ))
    (timeout : Option Duration) (name : Name κ) :
    (s.compose key sources timeout).state? name =
      (((s.state? name).map fun e =>
        if (sources.findSome? s.reason?).isSome then e
        else { e with
          listeners := e.listeners ++ List.replicate (sources.count name) (.relay key) }).or
        (if name = .merged key then
          some { reason := sources.findSome? s.reason?
                 woken := (sources.findSome? s.reason?).isSome } else none)) := by
  rw [compose]
  split
  · next reason h => simp [state?_addMerged, h]
  · next h => simp [state?_addMerged, state?_attachRelays, h]

theorem has_compose (s : Store κ) (key : κ) (sources : List (Name κ)) (timeout : Option Duration)
    (name : Name κ) :
    (s.compose key sources timeout).has name = (s.has name || decide (name = .merged key)) := by
  rw [has, state?_compose, has]
  cases s.state? name <;> by_cases h : name = .merged key <;> simp [h]

theorem reason?_compose_of_ne (s : Store κ) (key : κ) (sources : List (Name κ))
    (timeout : Option Duration) {name : Name κ} (h : name ≠ .merged key) :
    (s.compose key sources timeout).reason? name = s.reason? name := by
  rw [reason?, state?_compose, if_neg h, Option.or_none, reason?]
  cases s.state? name with
  | none => rfl
  | some e =>
    rw [Option.map_some]
    split <;> rfl

/-- A signal that was there before gets a relay for each time that it is followed. -/
theorem listeners_compose (s : Store κ) (key : κ) (sources : List (Name κ))
    (timeout : Option Duration) (name : Name κ) :
    (s.compose key sources timeout).listeners name = s.listeners name ++
      List.replicate (if (sources.findSome? s.reason?).isSome then 0
        else (sources.filter s.has).count name) (.relay key) := by
  rw [listeners, state?_compose, listeners]
  cases hstate : s.state? name with
  | none =>
    have hcount : (sources.filter s.has).count name = 0 := by
      rw [List.count_eq_zero, List.mem_filter]
      simp [has, hstate]
    rw [hcount, ite_self]
    by_cases h : name = .merged key <;> simp [h]
  | some e =>
    rw [List.count_filter (by rw [has, hstate]; rfl)]
    cases sources.findSome? s.reason? <;> simp

theorem issued_compose (s : Store κ) (key : κ) (sources : List (Name κ))
    (timeout : Option Duration) (name : Name κ) :
    (s.compose key sources timeout).issued name = s.issued name := by
  rw [issued, state?_compose, issued]
  cases s.state? name with
  | none => by_cases h : name = .merged key <;> simp [h]
  | some e => cases sources.findSome? s.reason? <;> simp

/-- Merging takes back of no signal that it has fired. -/
theorem reason?_compose_of_fired {name : Name κ} {reason : AbortReason}
    (h : s.reason? name = some reason) (key : κ) (sources : List (Name κ))
    (timeout : Option Duration) :
    (s.compose key sources timeout).reason? name = some reason := by
  obtain ⟨e, he, hreason⟩ := Option.bind_eq_some_iff.1 h
  rw [reason?, state?_compose, he, Option.map_some, Option.some_or, Option.bind_some, ← hreason]
  split <;> rfl

theorem merge?_compose_of_ne (s : Store κ) {key other : κ} (h : other ≠ key)
    (sources : List (Name κ)) (timeout : Option Duration) :
    (s.compose key sources timeout).merge? other = s.merge? other := by
  rw [compose]
  split
  · rw [merge?_addMerged, if_neg h, Option.or_none]
  · rw [merge?_addMerged, if_neg h, Option.or_none, merge?_attachRelays]

/-- A new merged signal has a timer, unless some signal has fired that it follows. -/
theorem merge?_compose {key : κ} (h : s.merge? key = none) (sources : List (Name κ))
    (timeout : Option Duration) :
    (s.compose key sources timeout).merge? key = some
      { sources
        deadline :=
          if (sources.findSome? s.reason?).isSome then none else s.deadline? timeout } := by
  rw [compose]
  split
  · next hfired => rw [merge?_addMerged, h, if_pos rfl, Option.none_or, hfired]; rfl
  · next hfired =>
    rw [merge?_addMerged, merge?_attachRelays, h, if_pos rfl, Option.none_or, hfired]
    rfl

/-! ## Calls -/

theorem calls_markFired (s : Store κ) (name : Name κ) (reason : AbortReason) (other : Name κ) :
    (s.markFired name reason).calls other = if other = name then [] else s.calls other := by
  rw [calls, listeners_markFired]
  split <;> rfl

theorem calls_attach (s : Store κ) (name : Name κ) (label : String) (effects : List (Effect κ))
    (other : Name κ) :
    (s.attach name label effects).calls other = s.calls other ++
      if other = name ∧ s.has other then [s.issued other] else [] := by
  rw [calls, listeners_attach, List.filterMap_append, calls]
  split <;> rfl

theorem calls_unsubscribe (s : Store κ) (name : Name κ) (id : Nat) (other : Name κ) :
    (s.unsubscribe name id).1.calls other =
      if other = name then (s.calls other).filter (· ≠ id) else s.calls other := by
  rw [calls, listeners_unsubscribe, calls]
  split
  · rw [List.filter_filterMap, List.filterMap_filter]
    congr 1
    funext l
    cases l with
    | relay key => rfl
    | call other label effects =>
      by_cases h : other = id <;> simp [isCall, Listener.id?, Option.filter, h]
  · rfl

/-- Taking a call away succeeds if it is there. -/
theorem found_unsubscribe (s : Store κ) (name : Name κ) (id : Nat) :
    (s.unsubscribe name id).2 = decide (id ∈ s.calls name) := by
  have hany : ∀ l : List (Listener κ),
      l.any (isCall id) = decide (id ∈ l.filterMap Listener.id?) := by
    intro l
    induction l with
    | nil => rfl
    | cons listener l ih =>
      cases listener with
      | relay key => simp [isCall, Listener.id?, ih]
      | call other label effects =>
        have hid : (other == id) = decide (id = other) := by
          by_cases h : other = id
          · simp [h]
          · simp [h, Ne.symm h]
        simp [isCall, Listener.id?, ih, hid, Bool.decide_or]
  rw [unsubscribe, calls, listeners, ← hany]
  cases s.state? name <;> rfl

/-- A relay has no number, so calls stay when relays go. -/
theorem filterMap_id?_filter (key : κ) (l : List (Listener κ)) :
    (l.filter (· ≠ .relay key)).filterMap Listener.id? = l.filterMap Listener.id? := by
  rw [List.filterMap_filter]
  congr 1
  funext listener
  cases listener with
  | relay other => by_cases h : other = key <;> simp [Listener.id?, h]
  | call id label effects => rfl

@[simp]
theorem calls_detach (s : Store κ) (key : κ) (name : Name κ) :
    (s.detach key).calls name = s.calls name := by
  rw [calls, listeners_detach, filterMap_id?_filter, calls]

@[simp]
theorem calls_clear (s : Store κ) (key : κ) (name : Name κ) :
    (s.clear key).calls name = s.calls name :=
  s.calls_detach key name

theorem calls_addController (s : Store κ) (n : Nat) (name : Name κ) :
    (s.addController n).calls name = s.calls name := by
  rw [calls, listeners_addController, calls]

/-- Merging signals attaches relays, and no calls. -/
theorem calls_compose (s : Store κ) (key : κ) (sources : List (Name κ))
    (timeout : Option Duration) (name : Name κ) :
    (s.compose key sources timeout).calls name = s.calls name := by
  have hrelays : ∀ n, (List.replicate n (Listener.relay key)).filterMap Listener.id? = [] := by
    intro n
    exact List.filterMap_eq_nil_iff.2 fun l hl => by rw [List.eq_of_mem_replicate hl]; rfl
  rw [calls, listeners_compose, List.filterMap_append, hrelays, List.append_nil, calls]

/-! ## Clearing twice -/

/-- Clearing once more changes nothing. -/
theorem clear_clear (s : Store κ) (key : κ) : (s.clear key).clear key = s.clear key := by
  -- One change of the merged signal is as good as two, and what is filtered out stays so.
  have hupdate : ∀ l : List (κ × Merge κ),
      update key (fun m => { m with cleared := true }) (update key (fun m =>
          { m with deadline := none }) (update key (fun m => { m with cleared := true })
            (update key (fun m => { m with deadline := none }) l))) =
        update key (fun m => { m with cleared := true })
          (update key (fun m => { m with deadline := none }) l) := by
    intro l
    induction l with
    | nil => rfl
    | cons entry l ih =>
      obtain ⟨k, m⟩ := entry
      by_cases hk : k = key
      · simp [update, hk]
      · simp only [update, hk, if_false, ih]
  have hwithout : ∀ e : Entry κ, withoutRelay key (withoutRelay key e) = withoutRelay key e := by
    intro e
    simp [withoutRelay, List.filter_filter]
  simp only [clear, detach, hupdate, List.map_map, Function.comp_def, hwithout]

end Store

end DaemonRpc.Signal

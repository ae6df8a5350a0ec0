import DaemonRpc.Proofs.Signal.Ledger

/-!
# Stores follow their ledgers

The operations of a store are those of its ledger:

* `store_issue`, `store_clear`: merging and clearing;
* `store_abort`, `store_advance`: aborting a controller and moving the clock, with all the signals
  that fire in consequence.
-/

namespace DaemonRpc.Signal.Ledger

variable {κ : Type} [DecidableEq κ] {l : Ledger κ}

/-! ## Detaching, clearing and firing a merged signal -/

theorem keys_modify {f : Record κ → Record κ} (hf : Record.Closes f) (key : κ) :
    (l.modify key f).records.map (·.ticket) = l.records.map (·.ticket) := by
  rw [modify, List.map_map]
  apply List.map_congr_left
  intro r _
  simp only [Function.comp]
  split
  · exact (hf r).1
  · rfl

theorem Distinct.modify (h : l.Distinct) {f : Record κ → Record κ} (hf : Record.Closes f)
    (key : κ) :
    (l.modify key f).Distinct := by
  have hkeys := congrArg (List.map Ticket.key) (keys_modify (l := l) hf key)
  rw [List.map_map, List.map_map] at hkeys
  exact (congrArg List.Nodup hkeys).mpr h

/-- A merged signal that does not wait is attached to nothing. -/
theorem relays_modify {f : Record κ → Record κ} (hf : Record.Closes f) (key : κ) (c : Nat) :
    (l.modify key f).relays c = (l.relays c).filter (· ≠ .relay key) := by
  unfold relays
  have haborted : (l.modify key f).aborted = l.aborted := rfl
  rw [haborted]
  split
  · rfl
  · rw [Ledger.modify, List.filter_map, List.filter_map, List.map_map, List.filter_filter]
    -- A record that no longer waits follows nothing: filtering the records is filtering the relays.
    have hfollows : ∀ r ∈ l.records,
        (Record.follows c ∘ fun r => if r.ticket.key = key then f r else r) r =
          (((fun x => decide (x ≠ Listener.relay key)) ∘ fun r => .relay r.ticket.key) r &&
            r.follows c) := by
      intro r _
      by_cases hr : r.ticket.key = key
      · simp [Function.comp, hr, Record.follows, (hf r).2]
      · simp [Function.comp, hr]
    rw [List.filter_congr hfollows]
    apply List.map_congr_left
    intro r _
    simp only [Function.comp]
    split
    · rw [(hf r).1]
    · rfl

/-- Taking the relays to a merged signal away from the controllers. -/
theorem controllerEntries_modify {f : Record κ → Record κ} (hf : Record.Closes f) (key : κ) :
    (l.modify key f).controllerEntries =
      l.controllerEntries.map fun entry => (entry.1, Store.withoutRelay key entry.2) := by
  rw [controllerEntries, controllerEntries, List.map_map]
  apply List.map_congr_left
  intro c _
  simp only [Function.comp, Store.withoutRelay, entry, relays_modify hf]
  rfl

/-- Detaching a merged signal, whatever else becomes of it. -/
theorem Distinct.detach_store (h : l.Distinct) {f : Record κ → Record κ} (hf : Record.Closes f)
    (key : κ) :
    l.store.detach key =
      { l.store with
        entries := (l.modify key f).controllerEntries ++ l.mergedEntries
        merges := l.records.map fun r =>
          (r.ticket.key, if r.ticket.key = key then { r.merge with deadline := none }
            else r.merge) } := by
  -- Nothing is attached to a merged signal.
  have hmerged : l.mergedEntries.map (fun entry => (entry.1, Store.withoutRelay key entry.2)) =
      l.mergedEntries := by
    rw [mergedEntries, List.map_map]
    rfl
  have hupdate := update_map (v := Record.merge) h key fun m : Merge κ =>
    { m with deadline := none }
  simp only [Store.detach, store, List.map_append, ← controllerEntries_modify hf, hmerged, hupdate]

/-- The store after a change to a record. -/
theorem store_modify {f : Record κ → Record κ} (hf : Record.Closes f) (key : κ) :
    (l.modify key f).store =
      { l.store with
        entries := (l.modify key f).controllerEntries ++ l.records.map fun r =>
          (.merged r.ticket.key, (if r.ticket.key = key then f r else r).entry)
        merges := l.records.map fun r =>
          (r.ticket.key, (if r.ticket.key = key then f r else r).merge) } := by
  have hticket : ∀ r : Record κ, (if r.ticket.key = key then f r else r).ticket = r.ticket := by
    intro r
    split
    · exact (hf r).1
    · rfl
  simp only [store, mergedEntries, Ledger.modify, List.map_map, Function.comp_def, hticket]

/-- Clearing a merged signal is clearing its record. -/
theorem Distinct.store_clear (h : l.Distinct) (key : κ) :
    (l.clear key).store = l.store.clear key := by
  have hupdate := update_map h key (fun m : Merge κ => { m with cleared := true })
    (v := fun r => if r.ticket.key = key then { r.merge with deadline := none } else r.merge)
  rw [clear, store_modify Record.closes_clear, Store.clear, h.detach_store Record.closes_clear]
  simp only [hupdate]
  have hentries : (l.records.map fun r =>
      (Name.merged r.ticket.key, (if r.ticket.key = key then r.clear else r).entry)) =
        l.mergedEntries := by
    apply List.map_congr_left
    intro r _
    split <;> rfl
  -- The timer is stopped by `detach` and again by the mark; once is enough.
  have hmerges : (l.records.map fun r =>
      (r.ticket.key, (if r.ticket.key = key then r.clear else r).merge)) =
        l.records.map fun r => (r.ticket.key, if r.ticket.key = key then
          { (if r.ticket.key = key then { r.merge with deadline := none } else r.merge) with
            cleared := true }
          else if r.ticket.key = key then { r.merge with deadline := none } else r.merge) := by
    apply List.map_congr_left
    intro r _
    split
    · simp [Record.merge, Record.isPending, Record.clear]
    · rfl
  rw [hentries, hmerges]

/-- Firing a merged signal and detaching it is firing its record. -/
theorem Distinct.store_fire (h : l.Distinct) {key : κ} (reason : AbortReason)
    (hwaits : ∀ r ∈ l.records, r.ticket.key = key → r.reason = none) :
    (l.fire key reason).store = (l.store.markFired (.merged key) reason).detach key := by
  have hupdate := update_map h key (fun m : Merge κ => { m with deadline := none })
    (v := Record.merge)
  -- The signal has no reason yet, so the record keeps the one that is given now.
  have hentries : (l.records.map fun r =>
      (Name.merged r.ticket.key, (if r.ticket.key = key then r.fire reason else r).entry)) =
        (l.records.map fun r => (Name.merged r.ticket.key, if r.ticket.key = key then
          { r.entry with reason := some reason, listeners := [], woken := true }
            else r.entry)).map
            fun entry => (entry.1, Store.withoutRelay key entry.2) := by
    rw [List.map_map]
    apply List.map_congr_left
    intro r hr
    simp only [Function.comp]
    split
    · next hkey => simp [Record.entry, Record.fire, Store.withoutRelay, hwaits r hr hkey]
    · rfl
  have hmerges : (l.records.map fun r =>
      (r.ticket.key, (if r.ticket.key = key then r.fire reason else r).merge)) =
        l.records.map fun r => (r.ticket.key, if r.ticket.key = key then
          { r.merge with deadline := none } else r.merge) := by
    apply List.map_congr_left
    intro r _
    split
    · simp only [Record.merge, Record.isPending_fire]
      rfl
    · rfl
  rw [fire, store_modify (Record.closes_fire reason), controllerEntries_modify
    (Record.closes_fire reason), Store.markFired, h.change_merged, hentries, hmerges]
  simp only [Store.detach, store, List.map_append, hupdate]

/-! ## Working through tasks -/

/-- A merged signal calls no listener when it fires. -/
theorem Distinct.run_fire_merged (h : l.Distinct) {key : κ} (reason : AbortReason)
    (hwaits : ∀ r ∈ l.records, r.ticket.key = key → r.reason = none) (rest : List (Task κ)) :
    l.store.run (.fire (.merged key) reason :: rest) =
      (l.store.markFired (.merged key) reason).run rest := by
  by_cases hkey : key ∈ l.records.map (·.ticket.key)
  · obtain ⟨r, hr, rfl⟩ := List.mem_map.1 hkey
    rw [Store.run_fire_of_waiting (h.state?_merged hr) (hwaits r hr rfl)]
    rfl
  · have hmark : l.store.markFired (.merged key) reason = l.store := by
      rw [Store.markFired, Store.change, update_of_not_mem]
      simpa [store, controllerEntries, mergedEntries] using hkey
    rw [Store.run_fire_of_unknown (state?_merged_of_not_mem hkey), hmark]

/-- A merged signal that has fired stays as it is. -/
theorem fire_of_fired {key : κ} (reason : AbortReason)
    (hfired : ∀ r ∈ l.records, r.ticket.key = key → r.reason.isSome = true) :
    l.fire key reason = l := by
  have hrecords : (l.records.map fun r => if r.ticket.key = key then r.fire reason else r) =
      l.records := by
    conv_rhs => rw [← List.map_id l.records]
    apply List.map_congr_left
    intro r hr
    split
    · next hkey =>
      rw [Record.fire, Option.or_of_isSome (hfired r hr hkey)]
      rfl
    · rfl
  rw [fire, modify, hrecords]

theorem Distinct.reason?_merged (h : l.Distinct) {r : Record κ} (hr : r ∈ l.records) :
    l.store.reason? (.merged r.ticket.key) = r.reason := by
  rw [Store.reason?, h.state?_merged hr]
  rfl

/-- A relay that is called fires the merged signal behind it. -/
theorem Distinct.run_relay (h : l.Distinct) (key : κ) (reason : AbortReason)
    (rest : List (Task κ)) :
    l.store.run (.deliver (.relay key) reason :: rest) = (l.fire key reason).store.run rest := by
  rw [Store.run]
  -- A signal that has fired already is left alone, in the store as in the ledger.
  split
  · next hfired =>
    rw [fire_of_fired]
    intro r hr hkey
    rwa [← h.reason?_merged hr, hkey]
  · next hfired =>
    have hwaits : ∀ r ∈ l.records, r.ticket.key = key → r.reason = none := by
      intro r hr hkey
      rw [← hkey, h.reason?_merged hr] at hfired
      simpa using hfired
    rw [h.run_fire_merged reason hwaits, Store.run, h.store_fire reason hwaits]

/-- Change the records of merged signals one after the other. -/
def modifyAll (l : Ledger κ) (keys : List κ) (f : Record κ → Record κ) : Ledger κ :=
  keys.foldl (fun l key => l.modify key f) l

/-- Changing records one after the other is changing them at once. -/
theorem modifyAll_eq (l : Ledger κ) (keys : List κ) {f : Record κ → Record κ}
    (hf : Record.Closes f) (hagain : ∀ r, f (f r) = f r) :
    l.modifyAll keys f =
      { l with records := l.records.map fun r => if r.ticket.key ∈ keys then f r else r } := by
  induction keys generalizing l with
  | nil => simp [modifyAll]
  | cons key keys ih =>
    rw [modifyAll, List.foldl_cons]
    apply (ih _).trans
    simp only [modify, List.map_map]
    congr 1
    apply List.map_congr_left
    intro r _
    -- A key may come again later in the list: `hagain` makes the second change vanish.
    by_cases hkey : r.ticket.key = key
    · simp [Function.comp, hkey, (hf r).1, hagain]
    · simp [Function.comp, hkey]

/-! ## Aborting a controller -/

/-- Relays that are called one after the other fire the merged signals behind them. -/
theorem Distinct.run_relays (h : l.Distinct) (keys : List κ) (reason : AbortReason) :
    l.store.run (deliverAll (keys.map .relay) reason) =
      ((l.modifyAll keys (·.fire reason)).store, []) := by
  induction keys generalizing l with
  | nil => simp [deliverAll, Store.run, modifyAll]
  | cons key keys ih =>
    simp only [deliverAll, List.map_cons, modifyAll, List.foldl_cons] at ih ⊢
    -- One relay is one change of the ledger, and the rest of the tasks run on its store.
    rw [h.run_relay]
    exact ih (h.modify (Record.closes_fire reason) key)

/-- Firing a controller takes everything from it that was attached. -/
theorem store_mark (l : Ledger κ) (c : Nat) :
    (l.mark c).store = l.store.markFired (.controller c) .aborted := by
  rw [Store.markFired, change_controller]
  have hentries : (l.mark c).controllerEntries = (List.range l.controllers).map fun d =>
      (.controller d, if d = c then
        { l.entry d with reason := some .aborted, listeners := [], woken := true }
          else l.entry d) := by
    apply List.map_congr_left
    intro d _
    by_cases hd : d = c
    · simp [hd, entry, relays, reason?, mark]
    · simp [hd, entry, relays, reason?, mark]
  simp only [store, hentries]
  rfl

/-- A controller is aborted, and the merged signals fire that wait for it. -/
def abort (l : Ledger κ) (c : Nat) : Ledger κ :=
  if c < l.controllers ∧ l.aborted c = false then
    { l.mark c with
      records := l.records.map fun r => if r.follows c then r.fire .aborted else r }
  else l

/-- Aborting a controller in the store is aborting it in the ledger. -/
theorem Distinct.store_abort (h : l.Distinct) (c : Nat) :
    (l.store.abort c).1 = (l.abort c).store := by
  rw [Store.abort, abort]
  have hstate := l.state?_controller c
  by_cases hc : c < l.controllers
  · rw [if_pos hc] at hstate
    by_cases ha : l.aborted c = true
    · -- It was aborted before.
      have hfired : (l.entry c).reason.isSome := by simp [entry, reason?, ha]
      rw [Store.run_fire_of_fired hstate hfired, Store.run, if_neg (by simp [ha])]
    · -- Its relays are the records that follow it, and each of them fires.
      have hwaits : (l.entry c).reason = none := by simp [entry, reason?, ha]
      have hrelays : (l.entry c).listeners =
          ((l.records.filter (·.follows c)).map (·.ticket.key)).map .relay := by
        simp [entry, relays, ha, Function.comp_def]
      have hmark : (l.mark c).Distinct := h
      have hkeys : ∀ r ∈ l.records,
          (if r.ticket.key ∈ (l.records.filter (·.follows c)).map (·.ticket.key) then
            r.fire .aborted else r) = if r.follows c then r.fire .aborted else r := by
        intro r hr
        simp only [h.mem_keys_filter hr]
      rw [Store.run_fire_of_waiting hstate hwaits, List.append_nil, hrelays, ← store_mark,
        hmark.run_relays, modifyAll_eq _ _ (Record.closes_fire _) (Record.fire_fire _),
        if_pos ⟨hc, by simpa using ha⟩]
      dsimp only [mark]
      rw [List.map_congr_left hkeys]
  · -- There is no such controller.
    rw [if_neg hc] at hstate
    rw [Store.run_fire_of_unknown hstate, Store.run, if_neg (by simp [hc])]

/-! ## Moving the clock -/

theorem Distinct.merge? (h : l.Distinct) {r : Record κ} (hr : r ∈ l.records) :
    l.store.merge? r.ticket.key = some r.merge :=
  lookup_map_of_mem h hr

/-- A timer that has a deadline fires if it still runs. -/
theorem Distinct.store_expire (h : l.Distinct) {r : Record κ} (hr : r ∈ l.records)
    (hdeadline : r.ticket.deadline.isSome = true) :
    (l.store.expire r.ticket.key).1 = (l.modify r.ticket.key .expire).store := by
  have hsame : ∀ r' ∈ l.records, r'.ticket.key = r.ticket.key → r' = r := fun r' hr' hkey =>
    List.inj_on_of_nodup_map h hr' hr hkey
  rw [Store.expire, Store.hasTimer, h.merge? hr]
  -- `expire` looks whether the signal waits; so does the store, by the timer that is left.
  cases hpending : r.isPending with
  | true =>
    have hmodify : l.modify r.ticket.key .expire = l.fire r.ticket.key .timedOut := by
      have hrecords : (l.records.map fun r' =>
          if r'.ticket.key = r.ticket.key then r'.expire else r') = l.records.map fun r' =>
            if r'.ticket.key = r.ticket.key then r'.fire .timedOut else r' := by
        apply List.map_congr_left
        intro r' hr'
        split
        · next hkey => rw [hsame r' hr' hkey, Record.expire, if_pos hpending]
        · rfl
      rw [fire, Ledger.modify, hrecords, Ledger.modify]
    rw [if_pos (by simpa [Record.merge, hpending] using hdeadline), h.run_relay, Store.run,
      hmodify]
  | false =>
    have hmodify : l.modify r.ticket.key .expire = l := by
      have hrecords : (l.records.map fun r' =>
          if r'.ticket.key = r.ticket.key then r'.expire else r') = l.records := by
        conv_rhs => rw [← List.map_id l.records]
        apply List.map_congr_left
        intro r' hr'
        split
        · next hkey =>
          rw [hsame r' hr' hkey, Record.expire, if_neg (by simp [hpending])]
          rfl
        · rfl
      rw [Ledger.modify, hrecords]
    rw [if_neg (by simp [Record.merge, hpending]), hmodify]

/-- Timers that have deadlines fire one after the other if they still run. -/
theorem Distinct.store_expireAll (h : l.Distinct) {keys : List κ}
    (hkeys : ∀ key ∈ keys, ∃ t ∈ l.records.map (·.ticket), t.key = key ∧ t.deadline.isSome) :
    (Store.expireAll keys l.store).1 = (l.modifyAll keys .expire).store := by
  induction keys generalizing l with
  | nil => rfl
  | cons key keys ih =>
    obtain ⟨hfirst, hmore⟩ := List.forall_mem_cons.1 hkeys
    obtain ⟨_, ht, rfl, hdeadline⟩ := hfirst
    obtain ⟨r, hr, rfl⟩ := List.mem_map.1 ht
    have hnext := ih (h.modify Record.closes_expire r.ticket.key)
      (by rwa [keys_modify Record.closes_expire])
    simp only [Store.expireAll, h.store_expire hr hdeadline, hnext, modifyAll, List.foldl_cons]

omit [DecidableEq κ] in
/-- The timers that are due are those that still run and have reached their deadlines. -/
theorem mem_due {key : κ} :
    key ∈ l.store.due ↔ ∃ r ∈ l.records, r.ticket.key = key ∧ r.isOverdue l.now = true := by
  simp only [Store.due, Store.dueTimers, List.mem_map, List.mem_mergeSort, List.mem_filterMap,
    Record.isOverdue_iff]
  constructor
  · -- The order in which timers fire does not matter for which of them do.
    rintro ⟨due, ⟨_, hm, hdue⟩, rfl⟩
    obtain ⟨r, hr, rfl⟩ := List.mem_map.1 hm
    obtain ⟨deadline, hfilter, rfl⟩ := Option.map_eq_some_iff.1 hdue
    obtain ⟨hsome, hle⟩ := Option.filter_eq_some_iff.1 hfilter
    exact ⟨r, hr, rfl, deadline, hsome, of_decide_eq_true hle⟩
  · rintro ⟨r, hr, rfl, deadline, hsome, hle⟩
    refine ⟨(deadline, r.ticket.key), ⟨_, List.mem_map.2 ⟨r, hr, rfl⟩, ?_⟩, rfl⟩
    exact Option.map_eq_some_iff.2
      ⟨deadline, Option.filter_eq_some_iff.2 ⟨hsome, decide_eq_true hle⟩, rfl⟩

/-- The clock moves and the timers that are due fire. -/
def advance (l : Ledger κ) (d : Duration) : Ledger κ :=
  { l with
    now := l.now + d.nanoseconds
    records := l.records.map fun r =>
      if r.isOverdue (l.now + d.nanoseconds) then r.fire .timedOut else r }

/-- Moving the clock of the store is moving the clock of the ledger. -/
theorem Distinct.store_advance (h : l.Distinct) (d : Duration) :
    (l.store.advance d).1 = (l.advance d).store := by
  let m : Ledger κ := { l with now := l.now + d.nanoseconds }
  have hm : m.Distinct := h
  -- The timers are looked up before the first of them fires.
  have hdue : ∀ key ∈ m.store.due,
      ∃ t ∈ m.records.map (·.ticket), t.key = key ∧ t.deadline.isSome := by
    intro key hkey
    obtain ⟨r, hr, rfl, hoverdue⟩ := mem_due.1 hkey
    obtain ⟨deadline, hsome, -⟩ := (Option.any_eq_true _ _).1 (Bool.and_eq_true_iff.1 hoverdue).2
    exact ⟨r.ticket, List.mem_map.2 ⟨r, hr, rfl⟩, rfl, by rw [hsome]; rfl⟩
  -- A record whose timer is due still waits, so to expire is to fire.
  have hrecords : ∀ r ∈ m.records,
      (if r.ticket.key ∈ m.store.due then r.expire else r) =
        if r.isOverdue m.now then r.fire .timedOut else r := by
    intro r hr
    have hmem : r.ticket.key ∈ m.store.due ↔ r.isOverdue m.now = true := by
      rw [mem_due]
      constructor
      · rintro ⟨r', hr', hkey, hoverdue⟩
        rwa [← List.inj_on_of_nodup_map hm hr' hr hkey]
      · exact fun hoverdue => ⟨r, hr, rfl, hoverdue⟩
    by_cases hoverdue : r.isOverdue m.now = true
    · have hpending : r.isPending = true := (Bool.and_eq_true_iff.1 hoverdue).1
      rw [if_pos (hmem.2 hoverdue), if_pos hoverdue, Record.expire, if_pos hpending]
    · rw [if_neg (mt hmem.1 hoverdue), if_neg hoverdue]
  have hall := hm.store_expireAll hdue
  rw [modifyAll_eq _ _ Record.closes_expire Record.expire_expire,
    List.map_congr_left hrecords] at hall
  exact hall

/-! ## Merging -/

/-- A merged signal is added. It has fired already if its controller has. -/
def issue (l : Ledger κ) (t : Ticket κ) : Ledger κ :=
  l.add { ticket := t, reason := t.controller.bind fun c => l.store.reason? (.controller c) }

theorem reason?_controller (l : Ledger κ) (c : Nat) :
    l.store.reason? (.controller c) = if c < l.controllers then l.reason? c else none := by
  rw [Store.reason?, state?_controller]
  split <;> rfl

/-- A merged signal that follows no controller is attached to nothing. -/
theorem store_issue_none (l : Ledger κ) (key : κ) (deadline : Option Nat) :
    (l.issue ⟨key, none, deadline⟩).store =
      l.store.addMerged key {} { sources := [], deadline } := by
  rw [issue, store_add]
  simp [relays_add, Record.follows, Store.addMerged, store, controllerEntries, entry, Record.entry,
    Record.merge, Record.isPending]

/-- A merged signal that follows a controller is attached to it. -/
theorem store_issue_some (l : Ledger κ) (key : κ) (c : Nat) (deadline : Option Nat)
    (hreason : l.store.reason? (.controller c) = none) :
    (l.issue ⟨key, some c, deadline⟩).store =
      (Store.attachRelay key l.store (.controller c)).addMerged key {}
        { sources := [.controller c], deadline } := by
  -- Only the controller that is followed gets a listener, and it has not fired.
  have hentries : ∀ d ∈ List.range l.controllers,
      ((Name.controller d : Name κ), { l.entry d with
        listeners := (l.add { ticket := ⟨key, some c, deadline⟩, reason := none }).relays d }) =
      (Name.controller d, if d = c then
        { l.entry d with listeners := (l.entry d).listeners ++ [.relay key] } else l.entry d) := by
    intro d hd
    rw [relays_add]
    by_cases hdc : d = c
    · subst hdc
      have haborted : l.aborted d = false := by
        simpa [reason?_controller, List.mem_range.1 hd, reason?] using hreason
      simp [haborted, Record.follows, Record.isPending, entry]
    · simp [hdc, Ne.symm hdc, Record.follows, entry]
  rw [issue, Option.bind_some, hreason, store_add, Store.attachRelay, change_controller,
    List.map_congr_left hentries]
  simp [Store.addMerged, store, Record.entry, Record.merge, Record.isPending]

/-- Merging a controller and a timeout in the store is adding a record to the ledger. -/
theorem store_issue (l : Ledger κ) (key : κ) (controller : Option Nat)
    (timeout : Option Duration) :
    (l.issue ⟨key, controller, l.store.deadline? timeout⟩).store =
      l.store.compose key (controller.toList.map .controller) timeout := by
  cases controller with
  | none => exact l.store_issue_none key _
  | some c =>
    simp only [Store.compose, Option.toList_some, List.map_cons, List.map_nil, List.findSome?_cons,
      List.findSome?_nil, List.foldl_cons, List.foldl_nil]
    cases hreason : l.store.reason? (.controller c) with
    | none => exact l.store_issue_some key c _ hreason
    -- A controller that was aborted before fires the signal at once and keeps no relay.
    | some reason =>
      rw [issue, Option.bind_some, hreason, store_add]
      simp [relays_add, Record.follows, Record.isPending, Store.addMerged, store,
        controllerEntries, entry, Record.entry, Record.merge]

end DaemonRpc.Signal.Ledger

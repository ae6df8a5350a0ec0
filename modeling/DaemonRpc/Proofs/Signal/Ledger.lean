import DaemonRpc.Proofs.Signal.Stores

/-!
# A ledger of merged signals

A store in which every merged signal follows one controller at most, and nothing but merged signals
is attached, is determined by a `Ledger`: which controllers are aborted, and a record for each
merged signal. `Ledger.store` is the store of a ledger. Here are the ledger, its changes, and how a
signal of its store is looked up and changed.
-/

namespace DaemonRpc.Signal

/-! ## Ledgers -/

/-- What a merged signal follows: a controller and a timer, or one of them, or nothing. -/
structure Ticket (κ : Type) where
  /-- The name of the merged signal. -/
  key : κ
  controller : Option Nat
  /-- When the timer fires. -/
  deadline : Option Nat
  deriving DecidableEq, Repr

/-- What became of a merged signal. -/
structure Record (κ : Type) where
  ticket : Ticket κ
  /-- The reason with which it fired. -/
  reason : Option AbortReason := none
  /-- It was cleared. -/
  cleared : Bool := false
  deriving DecidableEq, Repr

namespace Record

variable {κ : Type}

/-- The signal may still fire. -/
def isPending (r : Record κ) : Bool := r.reason.isNone && !r.cleared

/-- The signal may still fire through a controller. -/
def follows (controller : Nat) (r : Record κ) : Bool :=
  r.isPending && r.ticket.controller == some controller

/-- The state of the signal. -/
def entry (r : Record κ) : Entry κ := { reason := r.reason, woken := r.reason.isSome }

/-- What the signal was made of, as far as it is not done. -/
def merge (r : Record κ) : Merge κ where
  sources := r.ticket.controller.toList.map .controller
  deadline := if r.isPending then r.ticket.deadline else none
  cleared := r.cleared

/-- The signal fires unless it has fired. -/
def fire (reason : AbortReason) (r : Record κ) : Record κ :=
  { r with reason := r.reason.or (some reason) }

/-- The timer of the signal fires if it still runs. -/
def expire (r : Record κ) : Record κ := if r.isPending then r.fire .timedOut else r

/-- The timer of the signal still runs and should have fired by now. -/
def isOverdue (now : Nat) (r : Record κ) : Bool :=
  r.isPending && r.ticket.deadline.any (· ≤ now)

/-- The signal is cleared. -/
def clear (r : Record κ) : Record κ := { r with cleared := true }

@[simp]
theorem isPending_fire (reason : AbortReason) (r : Record κ) :
    (r.fire reason).isPending = false := by
  cases h : r.reason <;> simp [fire, isPending, h]

/-- The timer that is overdue is the one that the store still has. -/
theorem isOverdue_iff {now : Nat} {r : Record κ} :
    r.isOverdue now = true ↔ ∃ deadline, r.merge.deadline = some deadline ∧ deadline ≤ now := by
  cases h : r.isPending <;> simp [isOverdue, merge, h, Option.any_eq_true]

theorem fire_fire (reason : AbortReason) (r : Record κ) :
    (r.fire reason).fire reason = r.fire reason := by
  cases h : r.reason <;> simp [fire, h]

@[simp]
theorem isPending_clear (r : Record κ) : r.clear.isPending = false := by
  simp [clear, isPending]

/-- The change keeps what the signal follows, and ends its waiting. -/
def Closes (f : Record κ → Record κ) : Prop :=
  ∀ r, (f r).ticket = r.ticket ∧ (f r).isPending = false

theorem closes_fire (reason : AbortReason) : Closes (fun r : Record κ => r.fire reason) :=
  fun r => ⟨rfl, r.isPending_fire reason⟩

theorem closes_expire : Closes (expire : Record κ → Record κ) := by
  intro r
  cases h : r.isPending with
  | true => exact ⟨by simp [expire, h, fire], by simp [expire, h]⟩
  | false => exact ⟨by simp [expire, h], by simp [expire, h]⟩

theorem expire_expire (r : Record κ) : r.expire.expire = r.expire := by
  have h := (closes_expire r).2
  rw [expire, if_neg (by simp [h])]

theorem closes_clear : Closes (clear : Record κ → Record κ) := fun r => ⟨rfl, r.isPending_clear⟩

end Record

/-- Controllers and merged signals that follow them. -/
structure Ledger (κ : Type) where
  /-- How many controllers there are. -/
  controllers : Nat
  /-- Which of them are aborted. -/
  aborted : Nat → Bool := fun _ => false
  /-- The merged signals in the order of their creation. -/
  records : List (Record κ) := []
  /-- The nanoseconds that have passed. -/
  now : Nat := 0

namespace Ledger

variable {κ : Type} {l : Ledger κ}

/-- The merged signals have names of their own. -/
def Distinct (l : Ledger κ) : Prop := (l.records.map (·.ticket.key)).Nodup

/-- What is attached to a controller: the merged signals that may still fire through it. -/
def relays (l : Ledger κ) (controller : Nat) : List (Listener κ) :=
  if l.aborted controller then []
  else (l.records.filter (·.follows controller)).map fun r => .relay r.ticket.key

/-- The reason with which a controller fired. -/
def reason? (l : Ledger κ) (controller : Nat) : Option AbortReason :=
  if l.aborted controller then some .aborted else none

/-- The state of a controller. -/
def entry (l : Ledger κ) (controller : Nat) : Entry κ :=
  { reason := l.reason? controller, listeners := l.relays controller
    woken := l.aborted controller }

/-- The states of the controllers. -/
def controllerEntries (l : Ledger κ) : List (Name κ × Entry κ) :=
  (List.range l.controllers).map fun controller => (.controller controller, l.entry controller)

/-- The states of the merged signals. -/
def mergedEntries (l : Ledger κ) : List (Name κ × Entry κ) :=
  l.records.map fun r => (.merged r.ticket.key, r.entry)

/-- The store of a ledger. -/
def store (l : Ledger κ) : Store κ where
  entries := l.controllerEntries ++ l.mergedEntries
  merges := l.records.map fun r => (r.ticket.key, r.merge)
  now := l.now

theorem nodup_controllers (n : Nat) :
    ((List.range n).map (Name.controller : Nat → Name κ)).Nodup := by
  apply List.nodup_range.map
  intro a b h
  exact Name.controller.inj h

theorem Distinct.nodup_merged (h : l.Distinct) :
    (l.records.map fun r => Name.merged r.ticket.key).Nodup := by
  -- Different keys make different names.
  have hinj : Function.Injective (Name.merged : κ → Name κ) := fun a b => Name.merged.inj
  have := List.Nodup.map hinj h
  rwa [List.map_map] at this

theorem merged_not_mem (l : Ledger κ) (key : κ) :
    Name.merged key ∉ l.controllerEntries.map Prod.fst := by
  simp [controllerEntries]

theorem controller_not_mem (l : Ledger κ) (c : Nat) :
    Name.controller c ∉ l.mergedEntries.map Prod.fst := by
  simp [mergedEntries]

/-- The records that have a property are found by their names. -/
theorem Distinct.mem_keys_filter (h : l.Distinct) {r : Record κ} (hr : r ∈ l.records)
    (p : Record κ → Bool) :
    r.ticket.key ∈ (l.records.filter p).map (·.ticket.key) ↔ p r = true := by
  constructor
  · intro hmem
    obtain ⟨r', hr', hkey⟩ := List.mem_map.1 hmem
    obtain ⟨hr', hp⟩ := List.mem_filter.1 hr'
    rwa [← List.inj_on_of_nodup_map h hr' hr hkey]
  · intro hp
    exact List.mem_map.2 ⟨r, List.mem_filter.2 ⟨hr, hp⟩, rfl⟩

/-! ## Adding a record -/

/-- A record is added. -/
def add (l : Ledger κ) (r : Record κ) : Ledger κ := { l with records := l.records ++ [r] }

/-- A new record is attached to the controller through which it may still fire. -/
theorem relays_add (l : Ledger κ) (r : Record κ) (c : Nat) :
    (l.add r).relays c =
      l.relays c ++
        if l.aborted c = false ∧ r.follows c = true then [.relay r.ticket.key] else [] := by
  by_cases ha : l.aborted c = true
  · simp [relays, add, ha]
  · by_cases hr : r.follows c = true <;> simp [relays, add, ha, hr, List.filter_append]

/-- The store after a record was added. -/
theorem store_add (l : Ledger κ) (r : Record κ) :
    (l.add r).store =
      { l.store with
        entries := (List.range l.controllers).map (fun c =>
            (.controller c, { l.entry c with listeners := (l.add r).relays c })) ++
          l.mergedEntries ++ [(.merged r.ticket.key, r.entry)]
        merges := l.store.merges ++ [(r.ticket.key, r.merge)] } := by
  -- The listeners of a controller are read from the records, so they are all that changes.
  have hcontrollers : (l.add r).controllerEntries = (List.range l.controllers).map fun c =>
      (.controller c, { l.entry c with listeners := (l.add r).relays c }) := rfl
  simp only [store, mergedEntries, hcontrollers]
  simp [add]

/-! ## Operations -/

variable [DecidableEq κ]

/-- Change the record of a merged signal. -/
def modify (l : Ledger κ) (key : κ) (f : Record κ → Record κ) : Ledger κ :=
  { l with records := l.records.map fun r => if r.ticket.key = key then f r else r }

/-- A merged signal fires. -/
def fire (l : Ledger κ) (key : κ) (reason : AbortReason) : Ledger κ :=
  l.modify key (·.fire reason)

/-- A merged signal is cleared. -/
def clear (l : Ledger κ) (key : κ) : Ledger κ := l.modify key .clear

/-- A controller fires, and nothing in consequence. -/
def mark (l : Ledger κ) (controller : Nat) : Ledger κ :=
  { l with aborted := fun c => c == controller || l.aborted c }

/-! ## Looking a signal up and changing it -/

theorem state?_controller (l : Ledger κ) (c : Nat) :
    l.store.state? (.controller c) = if c < l.controllers then some (l.entry c) else none := by
  -- Controllers come first, and no merged signal is named like one.
  have hmerged : l.mergedEntries.lookup (.controller c) = none :=
    lookup_map_of_not_mem (by simp)
  rw [Store.state?, store, List.lookup_append, hmerged, Option.or_none]
  split
  · next h => exact lookup_map_of_mem (nodup_controllers _) (List.mem_range.2 h)
  · next h => exact lookup_map_of_not_mem (by simpa using h)

theorem Distinct.state?_merged (h : l.Distinct) {r : Record κ} (hr : r ∈ l.records) :
    l.store.state? (.merged r.ticket.key) = some r.entry := by
  have hcontrollers : l.controllerEntries.lookup (.merged r.ticket.key) = none :=
    lookup_map_of_not_mem (by simp)
  rw [Store.state?, store, List.lookup_append, hcontrollers, Option.none_or]
  exact lookup_map_of_mem h.nodup_merged hr

theorem state?_merged_of_not_mem {key : κ} (h : key ∉ l.records.map (·.ticket.key)) :
    l.store.state? (.merged key) = none := by
  have hcontrollers : l.controllerEntries.lookup (.merged key) = none :=
    lookup_map_of_not_mem (by simp)
  rw [Store.state?, store, List.lookup_append, hcontrollers, Option.none_or]
  exact lookup_map_of_not_mem (by simpa using h)

theorem change_controller (l : Ledger κ) (c : Nat) (f : Entry κ → Entry κ) :
    l.store.change (.controller c) f =
      { l.store with
        entries := ((List.range l.controllers).map fun d =>
          (.controller d, if d = c then f (l.entry d) else l.entry d)) ++ l.mergedEntries } := by
  have hupdate : update (.controller c) f l.controllerEntries = (List.range l.controllers).map
      fun d => (.controller d, if d = c then f (l.entry d) else l.entry d) := by
    rw [controllerEntries, update_map (nodup_controllers _)]
    simp only [Name.controller.injEq]
  rw [Store.change, store, update_append (.inr (l.controller_not_mem c)), hupdate,
    update_of_not_mem (l.controller_not_mem c)]

theorem Distinct.change_merged (h : l.Distinct) (key : κ) (f : Entry κ → Entry κ) :
    l.store.change (.merged key) f =
      { l.store with
        entries := l.controllerEntries ++ l.records.map fun r =>
          (.merged r.ticket.key, if r.ticket.key = key then f r.entry else r.entry) } := by
  have hupdate : update (.merged key) f l.mergedEntries = l.records.map fun r =>
      (.merged r.ticket.key, if r.ticket.key = key then f r.entry else r.entry) := by
    rw [mergedEntries, update_map h.nodup_merged]
    simp only [Name.merged.injEq]
  rw [Store.change, store, update_append (.inl (l.merged_not_mem key)), hupdate,
    update_of_not_mem (l.merged_not_mem key)]

end Ledger

end DaemonRpc.Signal

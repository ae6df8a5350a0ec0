import DaemonRpc.Proofs.Signal.Attachments
import DaemonRpc.Proofs.Signal.Deeds
import DaemonRpc.Proofs.Signal.Removal
import Mathlib.Algebra.BigOperators.Ring.Finset

/-!
# The bookkeeping of merged signals

`Scenario.Exact` says how many listeners each signal has and which timers run, from what was done to
the signals so far: a signal that has not fired has the listeners that were subscribed and not
unsubscribed, and those of the merged signals that follow it and have neither fired nor been
cleared. After any steps that is so, and a listener that is attached can be taken away once
(`Scenario.exact_runSteps`).

The proof keeps `Scenario.Booked`, in which each merged signal has all its relays or none
(`Store.Kept`), through every step (`Booked.step`).
-/

namespace DaemonRpc.Signal

/-! ## What was merged -/

/-- How many listeners of a signal the deed accounts for, given which merged signals are
attached. -/
def Deed.relays (attached : Nat → Bool) (name : Name Nat) : Deed Nat → Nat
  | .composed key sources _ => if attached key then sources.count name else 0
  | _ => 0

/-- The deed gives a timer to a merged signal. -/
def Deed.times (key : Nat) : Deed Nat → Bool
  | .composed k _ timed => decide (k = key) && timed
  | _ => false

/-- How many listeners of a signal come from merged signals, given which of these are attached. -/
def relaysIn (deeds : List (Deed Nat)) (attached : Nat → Bool) (name : Name Nat) : Nat :=
  (deeds.map (Deed.relays attached name)).sum

/-- How often a merged signal follows a signal. -/
def followsIn (deeds : List (Deed Nat)) (key : Nat) (name : Name Nat) : Nat :=
  relaysIn deeds (fun k => decide (k = key)) name

/-- A merged signal has a timer. -/
def timedIn (deeds : List (Deed Nat)) (key : Nat) : Bool := deeds.any (Deed.times key)

namespace Scenario

/-- The signals and timers of a store are as the deeds say. -/
structure Exact (deeds : List (Deed Nat)) (s : Store Nat) : Prop where
  fired : ∀ name, (s.reason? name).isSome = true → s.listenerCount name = 0
  /-- Only listeners that were subscribed are unsubscribed. -/
  unsubscribed : ∀ name, s.reason? name = none →
    deeds.count (.unsubscribed name) ≤ deeds.count (.subscribed name)
  unfired : ∀ name, s.reason? name = none →
    s.listenerCount name =
      deeds.count (.subscribed name) - deeds.count (.unsubscribed name) +
        relaysIn deeds (fun key =>
          (s.reason? (.merged key)).isNone && decide (.cleared key ∉ deeds)) name
  timer : ∀ key, s.hasTimer key = true ↔
    (∃ sources, .composed key sources true ∈ deeds) ∧ s.reason? (.merged key) = none ∧
      .cleared key ∉ deeds

/-- The store is as the deeds say, and the next controllers and keys are new. -/
structure Booked (deeds : List (Deed Nat)) (controllers keys : Nat) (s : Store Nat) : Prop where
  kept : s.Kept (followsIn deeds) (timedIn deeds) []
  numbered : s.Numbered
  calls : ∀ name, s.reason? name = none →
    (s.calls name).length + deeds.count (.unsubscribed name) = deeds.count (.subscribed name)
  cleared : ∀ key, s.isCleared key = decide (.cleared key ∈ deeds)
  known : ∀ key sources timed, .composed key sources timed ∈ deeds →
    key < keys ∧ s.has (.merged key) = true ∧ (s.merge? key).isSome = true
  newControllers : ∀ n, controllers ≤ n → s.has (.controller n) = false
  newKeys : ∀ key, keys ≤ key → s.has (.merged key) = false ∧ s.merge? key = none

namespace Booked

variable {deeds : List (Deed Nat)} {controllers keys : Nat} {s t : Store Nat}

/-! ## From the books to the listeners -/

/-- Listeners are calls and relays. -/
theorem length_listeners (l : List (Listener Nat)) {n : Nat}
    (h : ∀ key, .relay key ∈ l → key < n) :
    l.length =
      (l.filterMap Listener.id?).length + ∑ key ∈ Finset.range n, l.count (.relay key) := by
  induction l with
  | nil => simp
  | cons listener l ih =>
    have hrest := ih fun key hkey => h key (List.mem_cons_of_mem _ hkey)
    cases listener with
    | call id label effects =>
      simp [Listener.id?, hrest]
      omega
    | relay key =>
      have hkey : key ∈ Finset.range n := Finset.mem_range.2 (h key List.mem_cons_self)
      have hcount : ∀ k, (Listener.relay key :: l).count (.relay k) =
          l.count (.relay k) + if key = k then 1 else 0 := by
        intro k
        rw [List.count_cons]
        simp
      simp only [hcount, Finset.sum_add_distrib, Finset.sum_ite_eq, if_pos hkey, List.length_cons,
        hrest, List.filterMap_cons, Listener.id?]
      omega

/-- The relays of merged signals are those that the deeds account for. -/
theorem sum_followsIn {n : Nat} (attached : Nat → Bool)
    (h : ∀ key sources timed, Deed.composed key sources timed ∈ deeds → key < n)
    (name : Name Nat) :
    ∑ key ∈ Finset.range n, (if attached key then followsIn deeds key name else 0) =
      relaysIn deeds attached name := by
  induction deeds with
  | nil => simp [followsIn, relaysIn]
  | cons deed deeds ih =>
    have hrest := ih fun key sources timed hmem => h key sources timed (List.mem_cons_of_mem _ hmem)
    -- The deed accounts for the relays of one merged signal.
    have hdeed : ∑ key ∈ Finset.range n,
        (if attached key then deed.relays (fun k => decide (k = key)) name else 0) =
          deed.relays attached name := by
      cases deed with
      | composed k sources timed =>
        have hk : k ∈ Finset.range n := Finset.mem_range.2 (h k sources timed List.mem_cons_self)
        rw [Finset.sum_eq_single_of_mem k hk]
        · simp [Deed.relays]
        · intro key _ hne
          simp [Deed.relays, Ne.symm hne]
      | cleared | subscribed | unsubscribed => simp [Deed.relays]
    have hcons : ∀ attached, relaysIn (deed :: deeds) attached name =
        deed.relays attached name + relaysIn deeds attached name := fun _ => List.sum_cons
    rw [hcons, ← hdeed, ← hrest, ← Finset.sum_add_distrib]
    refine Finset.sum_congr rfl fun key _ => ?_
    rw [followsIn, hcons]
    split <;> rfl

theorem relaysIn_congr {attached other : Nat → Bool}
    (h : ∀ key sources timed, Deed.composed key sources timed ∈ deeds → attached key = other key)
    (name : Name Nat) : relaysIn deeds attached name = relaysIn deeds other name := by
  refine congrArg List.sum (List.map_congr_left fun deed hdeed => ?_)
  cases deed with
  | composed key sources timed => rw [Deed.relays, Deed.relays, h key sources timed hdeed]
  | cleared | subscribed | unsubscribed => rfl

theorem followsIn_eq_zero {key : Nat}
    (h : ∀ sources timed, Deed.composed key sources timed ∉ deeds) (name : Name Nat) :
    followsIn deeds key name = 0 := by
  refine List.sum_eq_zero fun n hn => ?_
  obtain ⟨deed, hdeed, rfl⟩ := List.mem_map.1 hn
  cases deed with
  | composed k sources timed =>
    have hne : k ≠ key := by
      rintro rfl
      exact h sources timed hdeed
    simp [Deed.relays, hne]
  | cleared | subscribed | unsubscribed => rfl

theorem timedIn_iff {key : Nat} :
    timedIn deeds key = true ↔ ∃ sources, Deed.composed key sources true ∈ deeds := by
  rw [timedIn, List.any_eq_true]
  constructor
  · rintro ⟨deed, hdeed, htimes⟩
    cases deed with
    | composed k sources timed =>
      simp only [Deed.times, Bool.and_eq_true, decide_eq_true_eq] at htimes
      obtain ⟨rfl, rfl⟩ := htimes
      exact ⟨sources, hdeed⟩
    | cleared | subscribed | unsubscribed => simp [Deed.times] at htimes
  · rintro ⟨sources, hdeed⟩
    exact ⟨_, hdeed, by simp [Deed.times]⟩

/-- A merged signal is attached if it has not fired and was not cleared. -/
theorem isHeld (h : Booked deeds controllers keys s) {key : Nat} {sources : List (Name Nat)}
    {timed : Bool} (hdeed : .composed key sources timed ∈ deeds) :
    s.isHeld [] key = ((s.reason? (.merged key)).isNone && decide (.cleared key ∉ deeds)) := by
  obtain ⟨-, hhas, hmerge⟩ := h.known key sources timed hdeed
  have hcleared := h.cleared key
  obtain ⟨m, hm⟩ := Option.isSome_iff_exists.1 hmerge
  rw [Store.isCleared, hm, Option.any_some] at hcleared
  simp [Store.isHeld, hhas, hm, hcleared, Bool.and_comm]

/-- Every relay belongs to a merged signal that was made. -/
theorem lt_of_relay (h : Booked deeds controllers keys s) {name : Name Nat} {key : Nat}
    (hmem : .relay key ∈ s.listeners name) : key < keys := by
  have hunfired : s.reason? name = none := by
    rw [← Option.not_isSome_iff_eq_none]
    intro hfired
    rw [h.kept.carries.silent name hfired] at hmem
    cases hmem
  have hcount := List.count_pos_iff.2 hmem
  rw [h.kept.carries.relays name key hunfired] at hcount
  by_contra hlt
  have hnone : ∀ sources timed, Deed.composed key sources timed ∉ deeds :=
    fun sources timed hdeed => hlt (h.known key sources timed hdeed).1
  simp [followsIn_eq_zero hnone] at hcount

/-- Books tell how many listeners there are, and which timers run. -/
theorem exact (h : Booked deeds controllers keys s) : Exact deeds s where
  fired name hfired := by rw [Store.listenerCount_eq, h.kept.carries.silent name hfired]; rfl
  unsubscribed name hname := by
    have hcalls := h.calls name hname
    omega
  unfired name hname := by
    have hcalls := h.calls name hname
    have hrelays := fun key => h.kept.carries.relays name key hname
    have hsum : ∑ key ∈ Finset.range keys, (s.listeners name).count (.relay key) =
        relaysIn deeds (fun key =>
          (s.reason? (.merged key)).isNone && decide (.cleared key ∉ deeds)) name := by
      simp only [hrelays]
      rw [sum_followsIn _ fun key sources timed hdeed => (h.known key sources timed hdeed).1]
      exact relaysIn_congr (fun key sources timed hdeed => h.isHeld hdeed) name
    rw [Store.listenerCount_eq, length_listeners _ fun _ => h.lt_of_relay, hsum, ← Store.calls]
    omega
  timer key := by
    rw [h.kept.carries.timers key, Bool.and_eq_true, timedIn_iff]
    constructor
    · rintro ⟨⟨sources, hdeed⟩, hheld⟩
      rw [h.isHeld hdeed] at hheld
      simp only [Bool.and_eq_true, Option.isNone_iff_eq_none, decide_eq_true_eq] at hheld
      exact ⟨⟨sources, hdeed⟩, hheld⟩
    · rintro ⟨⟨sources, hdeed⟩, hunfired, hcleared⟩
      refine ⟨⟨sources, hdeed⟩, ?_⟩
      rw [h.isHeld hdeed, hunfired, decide_eq_true hcleared]
      rfl

/-! ## Steps -/

theorem relaysIn_append (deeds more : List (Deed Nat)) (attached : Nat → Bool) (name : Name Nat) :
    relaysIn (deeds ++ more) attached name =
      relaysIn deeds attached name + relaysIn more attached name := by
  rw [relaysIn, List.map_append, List.sum_append]
  rfl

theorem timedIn_append (deeds more : List (Deed Nat)) (key : Nat) :
    timedIn (deeds ++ more) key = (timedIn deeds key || timedIn more key) :=
  List.any_append

/-- Only merging makes signals and timers. -/
theorem merges_nothing (deeds : List (Deed Nat)) {more : List (Deed Nat)}
    (h : ∀ key sources timed, Deed.composed key sources timed ∉ more) :
    followsIn (deeds ++ more) = followsIn deeds ∧ timedIn (deeds ++ more) = timedIn deeds := by
  constructor
  · funext key name
    have hzero := followsIn_eq_zero (h key) name
    rw [followsIn] at hzero
    rw [followsIn, relaysIn_append, hzero]
    rfl
  · funext key
    have hfalse : timedIn more key = false := by
      rw [← Bool.not_eq_true, timedIn_iff]
      rintro ⟨sources, hdeed⟩
      exact h key sources true hdeed
    rw [timedIn_append, hfalse, Bool.or_false]

/-- A cascade keeps the books, with what listeners do. -/
theorem cascade (h : Booked deeds controllers keys s) {more : List (Deed Nat)}
    (hmore : ∀ deed ∈ more, deed.byListeners = true)
    (hkept : t.Kept (followsIn deeds) (timedIn deeds) []) (hnumbered : t.Numbered)
    (hrecorded : Store.Recorded more s t) : Booked (deeds ++ more) controllers keys t := by
  have hcomposed : ∀ key sources timed, Deed.composed key sources timed ∉ more :=
    fun key sources timed hdeed => Bool.noConfusion (hmore _ hdeed)
  have hunsubscribed : ∀ name, more.count (.unsubscribed name) = 0 :=
    fun name => List.count_eq_zero.2 fun hdeed => Bool.noConfusion (hmore _ hdeed)
  obtain ⟨hfollows, htimed⟩ := merges_nothing deeds hcomposed
  refine ⟨by rwa [hfollows, htimed], hnumbered, ?_, ?_, ?_, ?_, ?_⟩
  · intro name hname
    have hcalls := h.calls name (hrecorded.unfired hname)
    rw [List.count_append, List.count_append, hunsubscribed, hrecorded.calls name hname]
    omega
  · intro key
    rw [hrecorded.cleared, h.cleared]
    simp
  · intro key sources timed hdeed
    rw [hrecorded.has, hrecorded.merge]
    exact h.known key sources timed
      ((List.mem_append.1 hdeed).resolve_right (hcomposed key sources timed))
  · intro n hn
    rw [hrecorded.has]
    exact h.newControllers n hn
  · intro key hkey
    obtain ⟨hhas, hmerge⟩ := h.newKeys key hkey
    have hsame := hrecorded.merge key
    rw [hmerge] at hsame
    exact ⟨by rw [hrecorded.has, hhas], by simpa using hsame⟩

theorem addController (h : Booked deeds controllers keys s) :
    Booked deeds (controllers + 1) keys (s.addController controllers) where
  kept := h.kept.addController controllers
  numbered name := by
    rw [Store.calls_addController, Store.issued_addController]
    exact h.numbered name
  calls name hname := by
    rw [Store.reason?_addController] at hname
    rw [Store.calls_addController]
    exact h.calls name hname
  cleared := h.cleared
  known key sources timed hdeed := by
    obtain ⟨hkey, hhas, hmerge⟩ := h.known key sources timed hdeed
    exact ⟨hkey, by rw [Store.has_addController, hhas, Bool.true_or], hmerge⟩
  newControllers n hn := by
    have hne : Name.controller n ≠ Name.controller (κ := Nat) controllers := by
      rintro hname
      cases hname
      omega
    rw [Store.has_addController, h.newControllers n (by omega), decide_eq_false hne, Bool.or_false]
  newKeys key hkey := by
    obtain ⟨hhas, hmerge⟩ := h.newKeys key hkey
    exact ⟨by simp [Store.has_addController, hhas], hmerge⟩

/-- A listener is taken away, if it is attached. -/
theorem unsubscribe (h : Booked deeds controllers keys s) (name : Name Nat) (id : Nat) :
    Booked (deeds ++ if (s.unsubscribe name id).2 = true then [.unsubscribed name] else [])
      controllers keys (s.unsubscribe name id).1 := by
  have hcomposed : ∀ key sources timed, Deed.composed key sources timed ∉
      (if (s.unsubscribe name id).2 = true then [.unsubscribed name] else []) := by
    intro key sources timed
    split <;> simp
  obtain ⟨hfollows, htimed⟩ := merges_nothing deeds hcomposed
  refine ⟨?_, h.numbered.unsubscribe name id, ?_, ?_, ?_, ?_, ?_⟩
  · rw [hfollows, htimed]
    exact h.kept.unsubscribe name id
  · intro other hother
    rw [Store.reason?_unsubscribe] at hother
    have hcalls := h.calls other hother
    have hlength := h.numbered.length_unsubscribe name id other
    rw [List.count_append, List.count_append]
    cases hfound : (s.unsubscribe name id).2 with
    | false =>
      simp [hfound] at hlength ⊢
      omega
    | true =>
      by_cases ho : other = name
      · simp [hfound, ho] at hlength hcalls ⊢
        omega
      · simp [hfound, ho, Ne.symm ho] at hlength ⊢
        omega
  · intro key
    rw [Store.isCleared, Store.merge?_unsubscribe, ← Store.isCleared, h.cleared]
    split <;> simp
  · intro key sources timed hdeed
    rw [Store.has_unsubscribe, Store.merge?_unsubscribe]
    exact h.known key sources timed
      ((List.mem_append.1 hdeed).resolve_right (hcomposed key sources timed))
  · intro n hn
    rw [Store.has_unsubscribe]
    exact h.newControllers n hn
  · intro key hkey
    rw [Store.has_unsubscribe, Store.merge?_unsubscribe]
    exact h.newKeys key hkey

theorem compose (h : Booked deeds controllers keys s) (sources : List (Name Nat))
    (timeout : Option Duration) :
    Booked (deeds ++ [.composed keys (sources.filter s.has) (timeout.any (!·.isZero))])
      controllers (keys + 1) (s.compose keys sources timeout) := by
  obtain ⟨hnew, hmerge⟩ := h.newKeys keys (Nat.le_refl keys)
  have hnone : ∀ sources timed, Deed.composed keys sources timed ∉ deeds :=
    fun sources timed hdeed => Nat.lt_irrefl _ (h.known keys sources timed hdeed).1
  have htimed : timedIn deeds keys = false := by
    rw [← Bool.not_eq_true, timedIn_iff]
    rintro ⟨sources, hdeed⟩
    exact hnone sources true hdeed
  refine ⟨?_, ?_, ?_, ?_, ?_, ?_, ?_⟩
  · convert h.kept.compose hnew hmerge (followsIn_eq_zero hnone) htimed sources timeout using 1
    · funext key name
      rw [followsIn, relaysIn_append, followsIn]
      simp [relaysIn, Deed.relays, eq_comm (a := key)]
    · funext key
      rw [timedIn_append]
      simp [timedIn, Deed.times, eq_comm (a := key)]
  · intro name
    rw [Store.calls_compose, Store.issued_compose]
    exact h.numbered name
  · intro name hname
    have hbefore : s.reason? name = none := by
      by_cases hkey : name = .merged keys
      · rw [hkey, Store.reason?_of_not_has hnew]
      · rwa [Store.reason?_compose_of_ne _ _ _ _ hkey] at hname
    simpa [Store.calls_compose] using h.calls name hbefore
  · intro key
    have hcleared : (s.compose keys sources timeout).isCleared key = s.isCleared key := by
      by_cases hkey : key = keys
      · rw [Store.isCleared, Store.isCleared, hkey, Store.merge?_compose hmerge, hmerge]
        rfl
      · rw [Store.isCleared, Store.merge?_compose_of_ne _ hkey, Store.isCleared]
    simp [hcleared, h.cleared]
  · intro key followed timed hdeed
    rcases List.mem_append.1 hdeed with hdeed | hdeed
    · obtain ⟨hkey, hhas, hsome⟩ := h.known key followed timed hdeed
      rw [Store.has_compose, hhas, Store.merge?_compose_of_ne _ (Nat.ne_of_lt hkey)]
      exact ⟨Nat.lt_succ_of_lt hkey, rfl, hsome⟩
    · obtain ⟨rfl, -, -⟩ := Deed.composed.inj (List.mem_singleton.1 hdeed)
      rw [Store.has_compose, Store.merge?_compose hmerge]
      exact ⟨Nat.lt_succ_self _, by simp, rfl⟩
  · intro n hn
    simp [Store.has_compose, h.newControllers n hn]
  · intro key hkey
    obtain ⟨hhas, hnomerge⟩ := h.newKeys key (by omega)
    have hne : key ≠ keys := by omega
    exact ⟨by simp [Store.has_compose, hhas, hne], by rwa [Store.merge?_compose_of_ne _ hne]⟩

/-- A key is passed over. -/
theorem skip (h : Booked deeds controllers keys s) : Booked deeds controllers (keys + 1) s where
  kept := h.kept
  numbered := h.numbered
  calls := h.calls
  cleared := h.cleared
  known key sources timed hdeed := by
    obtain ⟨hkey, hthere⟩ := h.known key sources timed hdeed
    exact ⟨Nat.lt_succ_of_lt hkey, hthere⟩
  newControllers := h.newControllers
  newKeys key hkey := h.newKeys key (Nat.le_of_succ_le hkey)

/-- The deeds at moments are done by listeners. -/
theorem byListeners_of_moments {moments : List (Moment Nat)} :
    ∀ deed ∈ moments.flatMap Moment.deeds, deed.byListeners = true := by
  intro deed hdeed
  obtain ⟨m, -, hm⟩ := List.mem_flatMap.1 hdeed
  exact m.byListeners_of_mem_deeds hm

/-- A cascade of tasks keeps the books, with what is done at its moments. -/
theorem run (h : Booked deeds controllers keys s) (tasks : List (Task Nat))
    (hpendings : pendings tasks = []) (htasks : ∀ task ∈ tasks, task.isForced = false) :
    Booked (deeds ++ (s.moments tasks).flatMap Moment.deeds) controllers keys (s.run tasks).1 :=
  h.cascade byListeners_of_moments
    ((Store.lasting_kept _ _).run ⟨by rw [hpendings]; exact h.kept, htasks⟩).1
    (Store.lasting_numbered.run h.numbered) (Store.recorded_run tasks s)

theorem advance (h : Booked deeds controllers keys s) (d : Duration) :
    Booked (deeds ++ (s.advanceMoments d).flatMap Moment.deeds) controllers keys
      (s.advance d).1 :=
  h.cascade byListeners_of_moments ((Store.lasting_kept _ _).advance ⟨h.kept, by simp⟩ d).1
    (Store.lasting_numbered.advance h.numbered d) (s.recorded_advance d)

theorem clear (h : Booked deeds controllers keys s) (key : Nat) :
    Booked (deeds ++ (s.moments [.perform (.clear key)]).flatMap Moment.deeds) controllers keys
      (s.clear key) := by
  have hrun := h.run [.perform (.clear key)] rfl (List.forall_mem_singleton.2 rfl)
  have hclear : (s.run [.perform (.clear key)]).1 = s.clear key := by rw [Store.run, Store.run]
  rwa [hclear] at hrun

/-- A listener is attached to a signal that has not fired, if it is there. -/
theorem attach (h : Booked deeds controllers keys s) {name : Name Nat}
    (hname : s.reason? name = none) (label : String) (effects : List (Effect Nat)) :
    Booked (deeds ++ if s.has name then [.subscribed name] else []) controllers keys
      (s.attach name label effects) := by
  have hkept := h.kept.attach hname label effects
  have hnumbered := h.numbered.attach name label effects
  cases hhas : s.has name with
  | true =>
    have hwaits : s.waits name = true := by simp [Store.waits, hhas, hname]
    exact h.cascade (List.forall_mem_singleton.2 rfl) hkept hnumbered (.attach hwaits label effects)
  | false => exact h.cascade (by simp) hkept hnumbered (.attach_of_not_has hhas label effects)

/-- Every step keeps the books. -/
theorem step {s : Scenario} (h : Booked deeds s.controllers s.merged.length s.store) (step : Step) :
    Booked (deeds ++ s.deeds step) (s.step step).1.controllers (s.step step).1.merged.length
      (s.step step).1.store := by
  cases step with
  | newController =>
    have hquiet : s.answered .newController = [] := rfl
    rw [deeds_of_answered rfl rfl, hquiet, List.append_nil]
    exact h.addController
  | subscribe signal label effects =>
    cases hreason : s.store.reason? signal with
    | some reason =>
      have htask : s.task? (.subscribe signal label effects) =
          some (.deliver (.call 0 label effects) reason) := by rw [task?, hreason]; rfl
      have hrun := h.run [.deliver (.call 0 label effects) reason] rfl
        (List.forall_mem_singleton.2 rfl)
      have hquiet : s.answered (.subscribe signal label effects) = [] := by
        simp [answered, Scenario.step, Store.subscribe, hreason]
      rw [deeds_of_task htask hquiet]
      simpa [Scenario.step, Store.subscribe, hreason] using hrun
    | none =>
      have htask : s.task? (.subscribe signal label effects) = none := by rw [task?, hreason]; rfl
      have hattach := h.attach hreason label effects
      rw [Store.has] at hattach
      rw [deeds_of_answered htask rfl]
      simpa [answered, Scenario.step, Store.subscribe, hreason] using hattach
  | unsubscribe label =>
    rw [deeds_of_answered rfl rfl]
    cases hlabel : (s.subscriptions.lookup label).join with
    | none => simpa [answered, Scenario.step, hlabel] using h
    | some subscription =>
      obtain ⟨signal, number⟩ := subscription
      have hunsubscribe := h.unsubscribe signal number
      have hanswered : s.answered (.unsubscribe label) =
          if (s.store.unsubscribe signal number).2 = true then [.unsubscribed signal] else [] := by
        simp only [answered, Scenario.step, hlabel, Answer.accepted.injEq]
        rfl
      rw [hanswered]
      simpa [Scenario.step, hlabel] using hunsubscribe
  | abort controller =>
    rw [deeds_of_task rfl rfl]
    exact h.run [.fire (.controller controller) .aborted] rfl (List.forall_mem_singleton.2 rfl)
  | clear key =>
    rw [deeds_of_task rfl rfl]
    exact h.clear key
  | drop key =>
    rw [deeds_of_task rfl rfl]
    simpa [Scenario.step] using h.clear key
  | advance time =>
    have hdeeds : s.deeds (.advance time) = (s.store.advanceMoments time).flatMap Moment.deeds :=
      List.append_nil _
    rw [hdeeds]
    exact h.advance time
  | compose sources timeout hasClock =>
    rw [deeds_of_answered rfl rfl]
    -- Merging fails before anything is changed.
    by_cases hfails : ((s.store.deadline? timeout).isSome && !hasClock) = true
    · have hstep : s.step (.compose sources timeout hasClock) =
          ({ s with merged := s.merged ++ [.failed] }, .error (.configuration .noClock), []) := by
        simp only [Scenario.step, Store.compose?, if_pos hfails]
      rw [answered, hstep]
      simpa using h.skip
    · have hstep : s.step (.compose sources timeout hasClock) =
          ({ s with
            store := s.store.compose s.merged.length sources timeout
            merged := s.merged ++ [.held] }, .done, []) := by
        simp only [Scenario.step, Store.compose?, if_neg hfails]
      rw [answered, hstep]
      simpa using h.compose sources timeout
  | wait signal label =>
    have hquiet : s.answered (.wait signal label) = [] := rfl
    rw [deeds_of_answered rfl rfl, hquiet, List.append_nil]
    exact h
  | poll label =>
    have hpoll : (s.step (.poll label)).1.store = s.store ∧
        (s.step (.poll label)).1.controllers = s.controllers ∧
        (s.step (.poll label)).1.merged = s.merged := by
      rw [Scenario.step]
      split
      · exact ⟨rfl, rfl, rfl⟩
      · split <;> exact ⟨rfl, rfl, rfl⟩
    have hquiet : s.answered (.poll label) = [] := rfl
    rw [hpoll.1, hpoll.2.1, hpoll.2.2, deeds_of_answered rfl rfl, hquiet, List.append_nil]
    exact h

theorem runSteps {s : Scenario} (h : Booked deeds s.controllers s.merged.length s.store)
    (steps : List Step) :
    Booked (deeds ++ s.history steps) (s.runSteps steps).controllers
      (s.runSteps steps).merged.length (s.runSteps steps).store := by
  induction steps generalizing s deeds with
  | nil => simpa [Scenario.history, Scenario.runSteps] using h
  | cons step steps ih =>
    have hsteps := ih (h.step step)
    rwa [List.append_assoc] at hsteps

/-- At the beginning there is nothing. -/
theorem empty : Booked [] 0 0 {} where
  kept := ⟨⟨fun _ _ => rfl, fun _ _ _ => by simp [followsIn, relaysIn]; rfl, fun _ => rfl⟩,
    List.nodup_nil, fun _ hkey => absurd hkey List.not_mem_nil⟩
  numbered _ := ⟨List.nodup_nil, fun _ hid => absurd hid List.not_mem_nil⟩
  calls _ _ := rfl
  cleared _ := rfl
  known _ _ _ hdeed := absurd hdeed List.not_mem_nil
  newControllers _ _ := rfl
  newKeys _ _ := ⟨rfl, rfl⟩

end Booked

/-- After any steps the signals and timers are as what was done to them says. A listener that is
attached then stays so, whatever else is done, until its label is unsubscribed: that succeeds if the
signal has not fired, and it succeeds once. Merging fails for a timeout if no clock runs, and only
then; if it fails the signals and timers stay as they are. Clearing once more changes nothing. -/
theorem exact_runSteps (steps : List Step) :
    let s := ({} : Scenario).runSteps steps
    Exact (({} : Scenario).history steps) s.store ∧
      (∀ signal label effects more, s.store.waits signal = true →
        (∀ step ∈ more, step.listener? ≠ some label) →
        let t := (s.step (.subscribe signal label effects)).1.runSteps more
        let removed := t.step (.unsubscribe label)
        removed.2.1 = .accepted (t.store.reason? signal).isNone ∧
          (removed.1.step (.unsubscribe label)).2.1 = .accepted false) ∧
      (∀ sources timeout hasClock,
        if timeout.any (!·.isZero) && !hasClock then
          (s.step (.compose sources timeout hasClock)).2.1 = .error (.configuration .noClock) ∧
            (s.step (.compose sources timeout hasClock)).1.store = s.store
        else (s.step (.compose sources timeout hasClock)).2.1 = .done) ∧
      ∀ key, (s.step (.clear key)).1.step (.clear key) = s.step (.clear key) := by
  intro s
  have hbooked := Booked.runSteps (s := {}) .empty steps
  have htagged : Tagged s := tagged_empty.runSteps steps
  refine ⟨hbooked.exact, ?_, ?_, ?_⟩
  · intro signal label effects more hwaits hmore t
    have hretains : t.Retains label signal (s.store.issued signal) :=
      (retains_subscribe hwaits label effects).runSteps (htagged.step _) hmore
    have hafter := (hbooked.step (.subscribe signal label effects)).runSteps more
    refine hretains.answers fun hfired => ?_
    rw [Store.calls, hafter.kept.carries.silent signal hfired]
    rfl
  · intro sources timeout hasClock
    have hdeadline : (s.store.deadline? timeout).isSome = timeout.any (!·.isZero) := by
      rw [Store.deadline?, Option.isSome_map, Option.isSome_filter]
    rw [← hdeadline]
    split
    · next hfails => simp only [step, Store.compose?, if_pos hfails, and_self]
    · next hfails => simp only [step, Store.compose?, if_neg hfails]
  · intro key
    simp only [step, Store.clear_clear]

/-- Another listener of the signal is taken away before. -/
theorem exact_runSteps_unsubscribe :
    let s := ({} : Scenario).runSteps [.newController]
    let t := (s.step (.subscribe (.controller 0) "a" [])).1.runSteps
      [.subscribe (.controller 0) "b" [], .unsubscribe "b"]
    let removed := t.step (.unsubscribe "a")
    removed.2.1 = .accepted true ∧
      (removed.1.step (.unsubscribe "a")).2.1 = .accepted false ∧
      Exact (({} : Scenario).history [.newController]) s.store := by
  obtain ⟨hexact, hunsubscribe, -⟩ := exact_runSteps [.newController]
  obtain ⟨hfirst, hagain⟩ := hunsubscribe (.controller 0) "a" []
    [.subscribe (.controller 0) "b" [], .unsubscribe "b"] (by decide) (by decide)
  exact ⟨hfirst, hagain, hexact⟩

end Scenario

end DaemonRpc.Signal

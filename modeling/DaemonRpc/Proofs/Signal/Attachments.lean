import DaemonRpc.Proofs.Signal.Moments

/-!
# What is attached while signals fire

`Store.Carries` says how many relays to each merged signal every unfired signal has, and which
timers run. While a cascade runs, a merged signal that has fired stays attached until the task that
detaches it is due; `Store.Kept` says, with these pending tasks in view, that each merged signal has
all its relays and its timer, or none of them. Every work of a cascade keeps that
(`Store.Kept.work`), and so does every cascade (`Store.lasting_kept`).
-/

namespace DaemonRpc.Signal.Store

variable {κ : Type} [DecidableEq κ] {s t : Store κ}

/-! ## Relays and timers -/

/-- The store has this many relays to merged signals on the signals that have not fired, and these
timers. -/
structure Carries (s : Store κ) (load : κ → Name κ → Nat) (running : κ → Bool) : Prop where
  /-- Nothing is attached to a signal that has fired. -/
  silent : ∀ name, (s.reason? name).isSome = true → s.listeners name = []
  relays : ∀ name key, s.reason? name = none → (s.listeners name).count (.relay key) = load key name
  timers : ∀ key, s.hasTimer key = running key

namespace Carries

variable {load : κ → Name κ → Nat} {running : κ → Bool}

/-- Only the views of a store matter. -/
theorem congr (h : s.Carries load running) (hreason : ∀ name, t.reason? name = s.reason? name)
    (hlisteners : ∀ name, t.listeners name = s.listeners name)
    (htimer : ∀ key, t.hasTimer key = s.hasTimer key) : t.Carries load running where
  silent name hfired := by
    rw [hlisteners]
    exact h.silent name (by rwa [hreason] at hfired)
  relays name key hunfired := by
    rw [hlisteners]
    exact h.relays name key (by rwa [hreason] at hunfired)
  timers key := (htimer key).trans (h.timers key)

theorem markFired (h : s.Carries load running) {name : Name κ} (hhas : s.has name = true)
    (reason : AbortReason) : (s.markFired name reason).Carries load running where
  silent other hfired := by
    rw [reason?_markFired hhas] at hfired
    rw [listeners_markFired]
    by_cases ho : other = name
    · rw [if_pos ho]
    · rw [if_neg ho] at hfired ⊢
      exact h.silent other hfired
  relays other key hunfired := by
    rw [reason?_markFired hhas] at hunfired
    by_cases ho : other = name
    · simp [ho] at hunfired
    · rw [if_neg ho] at hunfired
      rw [listeners_markFired, if_neg ho, h.relays other key hunfired]
  timers := h.timers

/-- A call is no relay. -/
theorem attach (h : s.Carries load running) {name : Name κ} (hunfired : s.reason? name = none)
    (label : String) (effects : List (Effect κ)) :
    (s.attach name label effects).Carries load running where
  silent other hfired := by
    rw [reason?_attach] at hfired
    have ho : other ≠ name := by
      rintro rfl
      simp [hunfired] at hfired
    rw [listeners_attach, if_neg (fun hand => ho hand.1), List.append_nil, h.silent other hfired]
  relays other key hother := by
    rw [reason?_attach] at hother
    rw [listeners_attach, List.count_append, h.relays other key hother]
    split <;> simp
  timers := h.timers

theorem unsubscribe (h : s.Carries load running) (name : Name κ) (id : Nat) :
    (s.unsubscribe name id).1.Carries load running where
  silent other hfired := by
    rw [reason?_unsubscribe] at hfired
    rw [listeners_unsubscribe, h.silent other hfired, List.filter_nil, ite_self]
  relays other key hother := by
    rw [reason?_unsubscribe] at hother
    rw [listeners_unsubscribe, ← h.relays other key hother]
    split
    · rw [List.count_filter rfl]
    · rfl
  timers := h.timers

/-- Detaching a merged signal takes its relays and its timer, and no others. -/
theorem detach (h : s.Carries load running) (key : κ) :
    (s.detach key).Carries (fun k name => if k = key then 0 else load k name)
      (fun k => decide (k ≠ key) && running k) where
  silent name hfired := by
    rw [reason?_detach] at hfired
    rw [listeners_detach, h.silent name hfired, List.filter_nil]
  relays name k hunfired := by
    rw [reason?_detach] at hunfired
    rw [listeners_detach]
    split
    · next hk =>
      rw [List.count_eq_zero, List.mem_filter, hk]
      simp
    · next hk => rw [List.count_filter (by simp [hk]), h.relays name k hunfired]
  timers k := by rw [hasTimer_detach, h.timers k]

theorem clear (h : s.Carries load running) (key : κ) :
    (s.clear key).Carries (fun k name => if k = key then 0 else load k name)
      (fun k => decide (k ≠ key) && running k) :=
  (h.detach key).congr (fun name => by rw [reason?_clear, reason?_detach])
    (fun name => by rw [listeners_clear, listeners_detach])
    (fun k => by rw [hasTimer_clear, hasTimer_detach])

/-- A new signal has nothing attached to it. -/
theorem addController (h : s.Carries load running) (n : Nat)
    : (s.addController n).Carries load running :=
  h.congr (s.reason?_addController n) (s.listeners_addController n) fun _ => rfl

/-- A merged signal is attached once for each time that it follows a signal, and its timer runs,
unless it fires at once. -/
theorem compose (h : s.Carries load running) {key : κ} (hnew : s.has (.merged key) = false)
    (hmerge : s.merge? key = none) (sources : List (Name κ)) (timeout : Option Duration) :
    (s.compose key sources timeout).Carries
      (fun k name => load k name +
        if k = key ∧ ¬ (sources.findSome? s.reason?).isSome then (sources.filter s.has).count name
        else 0)
      (fun k => running k ||
        decide (k = key ∧ ¬ (sources.findSome? s.reason?).isSome) &&
          (s.deadline? timeout).isSome) := by
  -- No relay is attached to a signal that has fired, since then another one is not merged.
  have hcount : ∀ name, (s.has name = true → (s.reason? name).isSome = true) →
      (if (sources.findSome? s.reason?).isSome then 0 else (sources.filter s.has).count name) =
        0 := by
    intro name hname
    split
    · rfl
    · next hnone =>
      rw [Option.not_isSome_iff_eq_none, List.findSome?_eq_none_iff] at hnone
      rw [List.count_eq_zero, List.mem_filter]
      rintro ⟨hmem, hhas⟩
      simp [hnone name hmem] at hname
      simp [hname] at hhas
  refine ⟨?_, ?_, ?_⟩
  · intro name hfired
    by_cases hname : name = .merged key
    · rw [listeners_compose, hcount name (by simp [hname, hnew]), hname, listeners_of_not_has hnew]
      rfl
    · rw [reason?_compose_of_ne _ _ _ _ hname] at hfired
      rw [listeners_compose, h.silent name hfired, hcount name fun _ => hfired]
      rfl
  · intro name k hunfired
    have hbefore : s.reason? name = none := by
      by_cases hname : name = .merged key
      · rw [hname, reason?_of_not_has hnew]
      · rwa [reason?_compose_of_ne _ _ _ _ hname] at hunfired
    rw [listeners_compose, List.count_append, h.relays name k hbefore, List.count_replicate]
    by_cases hk : k = key
    · cases sources.findSome? s.reason? <;> simp [hk]
    · simp [hk, Ne.symm hk]
  · intro k
    by_cases hk : k = key
    · rw [← h.timers k, hasTimer, hk, merge?_compose hmerge, hasTimer, hmerge]
      cases sources.findSome? s.reason? <;> simp
    · rw [← h.timers k, hasTimer, merge?_compose_of_ne _ hk, hasTimer]
      simp [hk]

end Carries

/-! ## Merged signals that are detached later -/

/-- A merged signal is attached: it is there and was not cleared, and it has not fired, or the task
is pending that detaches it. -/
def isHeld (s : Store κ) (pending : List κ) (key : κ) : Bool :=
  s.has (.merged key) && (s.merge? key).any (!·.cleared) &&
    ((s.reason? (.merged key)).isNone || decide (key ∈ pending))

/-- Merged signals have their relays, each as many as it follows a signal, and their timers as long
as they are attached. Those that are to be detached have fired. -/
structure Kept (follows : κ → Name κ → Nat) (timed : κ → Bool) (pending : List κ) (s : Store κ) :
    Prop where
  carries : s.Carries (fun key name => if s.isHeld pending key then follows key name else 0)
    (fun key => timed key && s.isHeld pending key)
  /-- Merged signals are detached once. -/
  once : pending.Nodup
  due : ∀ key ∈ pending, (s.reason? (.merged key)).isSome = true

namespace Kept

variable {follows : κ → Name κ → Nat} {timed : κ → Bool} {pending : List κ}

/-- Nothing matters of a store but its signals, its timers and what is attached. -/
theorem keep (h : Kept follows timed pending s)
    (hcarries : t.Carries (fun key name => if s.isHeld pending key then follows key name else 0)
      fun key => timed key && s.isHeld pending key)
    (hhas : ∀ key, t.has (.merged key) = s.has (.merged key))
    (hmerge : ∀ key, t.merge? key = s.merge? key)
    (hreason : ∀ key, t.reason? (.merged key) = s.reason? (.merged key)) :
    Kept follows timed pending t := by
  have hheld : ∀ key, t.isHeld pending key = s.isHeld pending key := by
    intro key
    rw [isHeld, hhas, hmerge, hreason, isHeld]
  refine ⟨?_, h.once, ?_⟩
  · simpa only [hheld] using hcarries
  · intro key hkey
    rw [hreason]
    exact h.due key hkey

theorem fire_controller (h : Kept follows timed pending s) {n : Nat}
    (hwaits : s.waits (.controller n) = true) (reason : AbortReason) :
    Kept follows timed pending (s.markFired (.controller n) reason) := by
  refine h.keep (h.carries.markFired (has_of_waits hwaits) reason) ?_ ?_ ?_
  · exact fun key => has_markFired ..
  · exact fun key => merge?_markFired ..
  · intro key
    rw [reason?_markFired (has_of_waits hwaits), if_neg (by simp)]

theorem attach (h : Kept follows timed pending s) {name : Name κ} (hname : s.reason? name = none)
    (label : String) (effects : List (Effect κ)) :
    Kept follows timed pending (s.attach name label effects) :=
  h.keep (h.carries.attach hname label effects) (fun _ => has_attach ..) (fun _ => merge?_attach ..)
    (fun _ => reason?_attach ..)

theorem unsubscribe (h : Kept follows timed pending s) (name : Name κ) (id : Nat) :
    Kept follows timed pending (s.unsubscribe name id).1 :=
  h.keep (h.carries.unsubscribe name id) (fun _ => has_unsubscribe ..)
    (fun _ => merge?_unsubscribe ..) (fun _ => reason?_unsubscribe ..)

/-- A merged signal that fires stays attached until it is detached. -/
theorem fire_merged (h : Kept follows timed pending s) {key : κ}
    (hwaits : s.waits (.merged key) = true) (reason : AbortReason) :
    Kept follows timed (key :: pending) (s.markFired (.merged key) reason) := by
  have hunfired := reason?_of_waits hwaits
  have hreason : ∀ k, (s.markFired (.merged key) reason).reason? (.merged k) =
      if k = key then some reason else s.reason? (.merged k) := by
    intro k
    rw [reason?_markFired (has_of_waits hwaits)]
    simp only [Name.merged.injEq]
  have hheld : ∀ k, (s.markFired (.merged key) reason).isHeld (key :: pending) k =
      s.isHeld pending k := by
    intro k
    rw [isHeld, has_markFired, merge?_markFired, hreason, isHeld]
    by_cases hk : k = key <;> simp [hk, hunfired]
  refine ⟨?_, ?_, ?_⟩
  · simpa only [hheld] using h.carries.markFired (has_of_waits hwaits) reason
  · refine List.nodup_cons.2 ⟨?_, h.once⟩
    intro hmem
    have hfired := h.due key hmem
    simp [hunfired] at hfired
  · intro k hk
    rw [hreason]
    split
    · rfl
    · next hne => exact h.due k ((List.mem_cons.1 hk).resolve_left hne)

/-- Letting go of a merged signal: it is not attached any more, and nothing else changes. -/
theorem release (h : Kept follows timed pending s) {key : κ} {later : List κ}
    (hcarries : t.Carries
      (fun k name => if k = key then 0 else if s.isHeld pending k then follows k name else 0)
      fun k => decide (k ≠ key) && (timed k && s.isHeld pending k))
    (hheld : ∀ k, t.isHeld later k = (decide (k ≠ key) && s.isHeld pending k))
    (hreason : ∀ k, t.reason? (.merged k) = s.reason? (.merged k))
    (hlater : later.Sublist pending) : Kept follows timed later t := by
  refine ⟨?_, h.once.sublist hlater, ?_⟩
  · have hload : (fun k name => if t.isHeld later k then follows k name else 0) =
        fun k name => if k = key then 0 else if s.isHeld pending k then follows k name else 0 := by
      funext k name
      by_cases hk : k = key <;> simp [hheld, hk]
    have hrunning : (fun k => timed k && t.isHeld later k) =
        fun k => decide (k ≠ key) && (timed k && s.isHeld pending k) := by
      funext k
      by_cases hk : k = key <;> simp [hheld, hk]
    rwa [hload, hrunning]
  · intro k hk
    rw [hreason]
    exact h.due k (hlater.subset hk)

theorem isHeld_detach (s : Store κ) (pending : List κ) (key k : κ) :
    (s.detach key).isHeld pending k = s.isHeld pending k := by
  have hmerge : ((s.detach key).merge? k).any (!·.cleared) = (s.merge? k).any (!·.cleared) := by
    rw [merge?_detach]
    split
    · cases s.merge? k <;> rfl
    · rfl
  rw [isHeld, hmerge, has_detach, reason?_detach, isHeld]

/-- The pending task to detach a merged signal is done. -/
theorem detach {key : κ} (h : Kept follows timed (key :: pending) s) :
    Kept follows timed pending (s.detach key) := by
  refine h.release (h.carries.detach key) ?_ (fun _ => reason?_detach ..)
    (List.sublist_cons_self ..)
  intro k
  rw [isHeld_detach, isHeld, isHeld]
  by_cases hk : k = key
  · -- It has fired, and no other task is pending that detaches it.
    have hfired := Option.isNone_eq_false_iff.2 (h.due key List.mem_cons_self)
    simp [hk, hfired, (List.nodup_cons.1 h.once).1]
  · simp [hk]

/-- Detaching a merged signal that is not there changes nothing. -/
theorem detach_of_not_has {key : κ} (h : Kept follows timed pending s)
    (hhas : s.has (.merged key) = false) : Kept follows timed pending (s.detach key) := by
  refine h.release (h.carries.detach key) ?_ (fun _ => reason?_detach ..) (List.Sublist.refl _)
  intro k
  rw [isHeld_detach]
  by_cases hk : k = key
  · simp [hk, isHeld, hhas]
  · simp [hk]

theorem clear (h : Kept follows timed pending s) (key : κ) :
    Kept follows timed pending (s.clear key) := by
  refine h.release (h.carries.clear key) ?_ (fun _ => reason?_clear ..) (List.Sublist.refl _)
  intro k
  rw [isHeld, merge?_clear, has_clear, reason?_clear, isHeld]
  by_cases hk : k = key
  · cases s.merge? k <;> simp [hk]
  · simp [hk]

theorem addController (h : Kept follows timed pending s) (n : Nat) :
    Kept follows timed pending (s.addController n) :=
  h.keep (h.carries.addController n) (fun _ => by simp [has_addController]) (fun _ => rfl)
    fun _ => reason?_addController ..

/-- A new merged signal is attached unless it fires at once. -/
theorem isHeld_compose {key : κ} (hnew : s.has (.merged key) = false) (hmerge : s.merge? key = none)
    (sources : List (Name κ)) (timeout : Option Duration) (k : κ) :
    (s.compose key sources timeout).isHeld [] k =
      if k = key then !(sources.findSome? s.reason?).isSome else s.isHeld [] k := by
  split
  · next hk =>
    rw [isHeld, hk, has_compose, merge?_compose hmerge,
      reason?_compose (state?_eq_none_of_not_has hnew)]
    cases sources.findSome? s.reason? <;> simp
  · next hk =>
    have hname : Name.merged k ≠ .merged key := by simpa using hk
    rw [isHeld, has_compose, merge?_compose_of_ne _ hk, reason?_compose_of_ne _ _ _ _ hname, isHeld]
    simp [hk]

theorem compose (h : Kept follows timed [] s) {key : κ} (hnew : s.has (.merged key) = false)
    (hmerge : s.merge? key = none) (hfollows : ∀ name, follows key name = 0)
    (htimed : timed key = false) (sources : List (Name κ)) (timeout : Option Duration) :
    Kept (fun k name => follows k name + if k = key then (sources.filter s.has).count name else 0)
      (fun k => timed k || decide (k = key) && timeout.any (!·.isZero)) []
      (s.compose key sources timeout) := by
  have hheld := isHeld_compose hnew hmerge sources timeout
  have hdeadline : (s.deadline? timeout).isSome = timeout.any (!·.isZero) := by
    rw [deadline?, Option.isSome_map, Option.isSome_filter]
  refine ⟨?_, List.nodup_nil, fun k hk => absurd hk List.not_mem_nil⟩
  convert h.carries.compose hnew hmerge sources timeout using 1
  · funext k name
    by_cases hk : k = key
    · cases hfired : sources.findSome? s.reason? <;> simp [hheld, hk, hfired, hfollows]
    · simp [hheld, hk]
  · funext k
    by_cases hk : k = key
    · cases hfired : sources.findSome? s.reason? <;> simp [hheld, hk, hfired, htimed, hdeadline]
    · simp [hheld, hk]

end Kept

end Store

/-! ## Cascades -/

section Tasks

variable {κ : Type}

/-- The merged signal that a task detaches. -/
def Task.detached? : Task κ → Option κ
  | .detach key => some key
  | _ => none

/-- The merged signals that tasks detach. -/
def pendings (tasks : List (Task κ)) : List κ := tasks.filterMap Task.detached?

@[simp]
theorem pendings_append (tasks rest : List (Task κ)) :
    pendings (tasks ++ rest) = pendings tasks ++ pendings rest :=
  List.filterMap_append

@[simp]
theorem pendings_deliverAll (listeners : List (Listener κ)) (reason : AbortReason) :
    pendings (deliverAll listeners reason) = [] := by
  rw [pendings, deliverAll, List.filterMap_map]
  exact List.filterMap_eq_nil_iff.2 fun _ _ => rfl

@[simp]
theorem pendings_performAll (effects : List (Effect κ)) : pendings (performAll effects) = [] := by
  rw [pendings, performAll, List.filterMap_map]
  exact List.filterMap_eq_nil_iff.2 fun _ _ => rfl

/-- The task fires a merged signal, and not through a relay to it. -/
def Task.isForced : Task κ → Bool
  | .fire (.merged _) _ => true
  | _ => false

variable [DecidableEq κ] {s : Store κ}

/-- No work has a merged signal fired in consequence, but through relays to it. -/
theorem Store.not_isForced_work (s : Store κ) (task : Task κ) :
    ∀ next ∈ (s.work task).tasks, next.isForced = false := by
  have hdeliver : ∀ (listeners : List (Listener κ)) (reason : AbortReason),
      ∀ next ∈ deliverAll listeners reason, next.isForced = false := by
    intro listeners reason
    exact List.forall_mem_map.2 fun _ _ => rfl
  unfold Store.work
  split
  case h_1 name reason =>
    split
    · exact hdeliver _ reason
    · simp
  case h_2 key reason =>
    split
    · refine List.forall_mem_append.2 ⟨hdeliver _ reason, ?_⟩
      exact List.forall_mem_singleton.2 rfl
    · split <;> simp
  case h_3 label effects reason => exact List.forall_mem_map.2 fun _ _ => rfl
  case h_4 n => exact List.forall_mem_singleton.2 rfl
  case h_7 => split <;> simp
  all_goals simp

end Tasks

namespace Store

variable {κ : Type} [DecidableEq κ] {s : Store κ} {follows : κ → Name κ → Nat} {timed : κ → Bool}

/-- Merged signals are fired only through relays to them, as long as that is so. -/
theorem lasting_unforced :
    Lasting fun tasks (_ : Store κ) => ∀ task ∈ tasks, task.isForced = false where
  work task _ s h :=
    List.forall_mem_append.2 ⟨s.not_isForced_work task, (List.forall_mem_cons.1 h).2⟩
  expire _ _ _ _ := List.forall_mem_singleton.2 rfl
  clock _ _ h := h

/-- Every work keeps which signals are attached. -/
theorem Kept.work {task : Task κ} {rest : List (Task κ)}
    (h : Kept follows timed (pendings (task :: rest)) s) (htask : task.isForced = false) :
    Kept follows timed (pendings ((s.work task).tasks ++ rest)) (s.work task).store := by
  rw [pendings_append]
  match task with
  | .fire (.controller n) reason =>
    rw [Store.work]
    split
    · next hwaits =>
      rw [pendings_deliverAll]
      exact h.fire_controller hwaits reason
    · exact h
  | .deliver (.relay key) reason =>
    rw [Store.work]
    split
    · next hwaits =>
      rw [pendings_append, pendings_deliverAll]
      exact h.fire_merged hwaits reason
    · split
      · exact h
      · next hhas => exact h.detach_of_not_has (Bool.not_eq_true _ ▸ hhas)
  | .deliver (.call _ _ effects) _ =>
    rw [Store.work, pendings_performAll]
    exact h
  | .perform (.abort n) => exact h
  | .perform (.clear key) => exact h.clear key
  | .perform (.count name) => exact h
  | .perform (.subscribe name label) =>
    rw [Store.work]
    split
    · exact h
    · next hname => exact h.attach hname label []
  | .detach key => exact h.detach

/-- Which signals are attached is kept while merged signals are fired through relays only. -/
theorem lasting_kept (follows : κ → Name κ → Nat) (timed : κ → Bool) :
    Lasting fun tasks (s : Store κ) => Kept follows timed (pendings tasks) s ∧
      ∀ task ∈ tasks, task.isForced = false where
  work task rest s h :=
    ⟨h.1.work (h.2 task List.mem_cons_self), lasting_unforced.work task rest s h.2⟩
  expire s key htimer h := ⟨h.1, lasting_unforced.expire s key htimer h.2⟩
  clock _ _ h := ⟨h.1.keep (h.1.carries.congr (fun _ => rfl) (fun _ => rfl) fun _ => rfl)
    (fun _ => rfl) (fun _ => rfl) fun _ => rfl, h.2⟩

end Store

end DaemonRpc.Signal

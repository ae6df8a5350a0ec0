import DaemonRpc.Proofs.Signal.Silence

/-!
# Following the first source

Listeners are passive if they only report, count and subscribe others that only report. Then all
that fires in one cascade fires with one reason (`Store.Gentle`). What a task of such a cascade
comes to is `Store.Gently`; what every single work keeps is read off it.

A merged signal that has not fired `Listens` to its sources: none of them has fired, it is attached
to them and to nothing else, and its timer runs. As soon as a source fires or the timer does, the
merged signal is `Reached`: the relay to it is on its way, and it fires before the cascade is over.
Every work leads from the one to the other or keeps them (`Store.Listens.work`), and the clock
cannot move past the timer without reaching the signal (`Store.Listens.advance`).
-/

namespace DaemonRpc.Signal

/-! ## Passive listeners -/

section

variable {κ : Type}

/-- The effect fires and clears nothing. -/
def Effect.isPassive : Effect κ → Bool
  | .count _ | .subscribe _ _ => true
  | .abort _ | .clear _ => false

/-- The effects of a listener are passive. -/
def Listener.isPassive : Listener κ → Bool
  | .call _ _ effects => effects.all Effect.isPassive
  | .relay _ => true

/-- The task fires signals with this reason only, and clears nothing. -/
def Task.isGentle (reason : AbortReason) : Task κ → Bool
  | .fire (.controller _) r | .deliver (.relay _) r => r = reason
  | .fire (.merged _) _ => false
  | .deliver (.call _ _ effects) _ => effects.all Effect.isPassive
  | .perform effect => effect.isPassive
  | .detach _ => true

end

/-- The task relays to this merged signal, or detaches it. -/
def Task.concerns (key : Nat) : Task Nat → Bool
  | .deliver (.relay k) _ | .detach k => k = key
  | _ => false

/-- The listeners that come from a step are passive. -/
def Step.isPassive : Step → Bool
  | .subscribe _ _ effects => effects.all Effect.isPassive
  | _ => true

namespace Store

variable {key : Nat} {reason : AbortReason} {tasks rest : List (Task Nat)} {s t : Store Nat}

/-- All listeners are passive. -/
def Passive (s : Store Nat) : Prop :=
  ∀ name, ∀ listener ∈ s.listeners name, listener.isPassive = true

/-- All listeners are passive, and the tasks fire signals with this reason only. -/
structure Gentle (reason : AbortReason) (tasks : List (Task Nat)) (s : Store Nat) : Prop where
  passive : s.Passive
  gentle : ∀ task ∈ tasks, task.isGentle reason = true

/-- There is no listener but what was there before. -/
theorem Passive.mono (h : s.Passive) (hsub : ∀ name, t.listeners name ⊆ s.listeners name) :
    t.Passive :=
  fun name listener hlistener => h name listener (hsub name hlistener)

theorem Passive.markFired (h : s.Passive) (name : Name Nat) (reason : AbortReason) :
    (s.markFired name reason).Passive := by
  refine h.mono fun other listener hlistener => ?_
  rw [listeners_markFired] at hlistener
  split at hlistener
  · cases hlistener
  · exact hlistener

theorem Passive.attach (h : s.Passive) (name : Name Nat) (label : String)
    {effects : List (Effect Nat)} (heffects : effects.all Effect.isPassive = true) :
    (s.attach name label effects).Passive := by
  intro other listener hlistener
  rw [listeners_attach] at hlistener
  rcases List.mem_append.1 hlistener with hlistener | hlistener
  · exact h other listener hlistener
  · split at hlistener
    · rw [List.mem_singleton.1 hlistener]
      exact heffects
    · cases hlistener

theorem Passive.detach (h : s.Passive) (key : Nat) : (s.detach key).Passive := by
  refine h.mono fun name listener hlistener => ?_
  rw [listeners_detach] at hlistener
  exact List.mem_of_mem_filter hlistener

theorem Passive.clear (h : s.Passive) (key : Nat) : (s.clear key).Passive := by
  refine h.mono fun name listener hlistener => ?_
  rw [listeners_clear] at hlistener
  exact List.mem_of_mem_filter hlistener

/-- Calling passive listeners is gentle. -/
theorem Passive.isGentle_deliverAll (h : s.Passive) (name : Name Nat) (reason : AbortReason) :
    ∀ task ∈ deliverAll (s.listeners name) reason, task.isGentle reason = true := by
  refine List.forall_mem_map.2 fun listener hlistener => ?_
  have hpassive := h name listener hlistener
  cases listener with
  | relay key => exact decide_eq_true rfl
  | call id label effects => exact hpassive

/-- What a gentle task comes to. No merged signal is fired or detached but the one that the task
concerns. -/
inductive Gently (reason : AbortReason) (s : Store Nat) (task : Task Nat) : Work Nat → Prop
  | same {next : List (Task Nat)} {events : List (Event Nat)}
      (hgentle : ∀ other ∈ next, other.isGentle reason = true)
      (hquiet : ∀ key, ∀ other ∈ next, other.concerns key = false) :
      Gently reason s task { tasks := next, store := s, events }
  | fired {name : Name Nat} {next : List (Task Nat)} (hwaits : s.waits name = true)
      (hname : ∀ key, task.concerns key = false → name ≠ .merged key)
      (hgentle : ∀ other ∈ next, other.isGentle reason = true)
      (hquiet : ∀ key, task.concerns key = false → ∀ other ∈ next, other.concerns key = false) :
      Gently reason s task
        { tasks := deliverAll (s.listeners name) reason ++ next, store := s.markFired name reason }
  | attached (name : Name Nat) (label : String) {events : List (Event Nat)} :
      Gently reason s task { store := s.attach name label [], events }
  | detached {other : Nat} (hother : ∀ key, task.concerns key = false → key ≠ other) :
      Gently reason s task { store := s.detach other }

theorem gently_work (s : Store Nat) {task : Task Nat} (h : task.isGentle reason = true) :
    Gently reason s task (s.work task) := by
  have hidle : ∀ events, Gently reason s task { store := s, events } :=
    fun events => .same (List.forall_mem_nil _) fun _ => List.forall_mem_nil _
  match task with
  | .fire (.controller n) r =>
    obtain rfl : r = reason := of_decide_eq_true h
    rw [work]
    split
    · next hwaits =>
      have hfired := @Gently.fired r s (.fire (.controller n) r) _ [] hwaits (by simp)
        (List.forall_mem_nil _) fun _ _ => List.forall_mem_nil _
      rwa [List.append_nil] at hfired
    · exact hidle []
  | .deliver (.relay other) r =>
    obtain rfl : r = reason := of_decide_eq_true h
    have hother : ∀ key, Task.concerns key (.deliver (.relay other) r) = false → key ≠ other :=
      fun key hquiet => Ne.symm (of_decide_eq_false hquiet)
    rw [work]
    split
    · next hwaits =>
      refine .fired hwaits (fun key hquiet => ?_) (List.forall_mem_singleton.2 rfl)
        fun key hquiet => List.forall_mem_singleton.2 hquiet
      simpa using (hother key hquiet).symm
    · split
      · exact hidle []
      · exact .detached hother
  | .deliver (.call _ label effects) r =>
    refine .same (List.forall_mem_map.2 fun effect heffect => ?_)
      fun _ => List.forall_mem_map.2 fun _ _ => rfl
    exact List.all_eq_true.1 h _ heffect
  | .perform (.count name) => exact hidle _
  | .perform (.subscribe name label) =>
    rw [work]
    split
    · exact hidle _
    · exact .attached name label
  | .detach other => exact .detached fun key hquiet => Ne.symm (of_decide_eq_false hquiet)

theorem Gentle.work {task : Task Nat} (h : Gentle reason (task :: rest) s) :
    Gentle reason ((s.work task).tasks ++ rest) (s.work task).store := by
  obtain ⟨htask, hrest⟩ := List.forall_mem_cons.1 h.gentle
  have hworks := s.gently_work htask
  generalize s.work task = w at hworks
  cases hworks with
  | same hgentle _ => exact ⟨h.passive, List.forall_mem_append.2 ⟨hgentle, hrest⟩⟩
  | @fired name _ _ _ hgentle _ =>
    refine ⟨h.passive.markFired name reason, List.forall_mem_append.2 ⟨?_, hrest⟩⟩
    exact List.forall_mem_append.2 ⟨h.passive.isGentle_deliverAll name reason, hgentle⟩
  | attached name label => exact ⟨h.passive.attach name label rfl, hrest⟩
  | detached _ => exact ⟨h.passive.detach _, hrest⟩

/-- What fires in a gentle task fires with its reason. -/
theorem reason?_work {task : Task Nat} (h : task.isGentle reason = true) (name : Name Nat) :
    (s.work task).store.reason? name = s.reason? name ∨
      (s.work task).store.reason? name = some reason := by
  have hworks := s.gently_work h
  generalize s.work task = w at hworks
  cases hworks with
  | same _ _ => exact .inl rfl
  | fired hwaits _ _ _ =>
    rw [reason?_markFired (has_of_waits hwaits)]
    split
    · exact .inr rfl
    · exact .inl rfl
  | attached _ _ => exact .inl (reason?_attach ..)
  | detached _ => exact .inl (reason?_detach ..)

/-- What fires in the tasks fires with this reason. -/
structure Agrees (reason : AbortReason) (s : Store Nat) (tasks : List (Task Nat)) (t : Store Nat) :
    Prop where
  gentle : Gentle reason tasks t
  reason? : ∀ name, t.reason? name = s.reason? name ∨ t.reason? name = some reason

theorem Agrees.work {task : Task Nat} (h : Agrees reason s (task :: rest) t) :
    Agrees reason s ((t.work task).tasks ++ rest) (t.work task).store where
  gentle := h.gentle.work
  reason? name := by
    rcases reason?_work (h.gentle.gentle task List.mem_cons_self) name with hsame | hfired
    · rw [hsame]
      exact h.reason? name
    · exact .inr hfired

theorem Gentle.run (h : Gentle reason tasks s) : Agrees reason s [] (s.run tasks).1 :=
  run_of_work (fun _ _ _ h => h.work) ⟨h, fun _ => .inl rfl⟩

theorem Passive.advance (h : s.Passive) (d : Duration) :
    Agrees .timedOut s [] (s.advance d).1 := by
  refine expireAll_of_work (fun _ _ _ h => h.work) (fun _ _ _ _ h => ⟨⟨h.gentle.passive, ?_⟩, ?_⟩)
    ⟨⟨h, List.forall_mem_nil _⟩, fun _ => .inl rfl⟩
  · exact List.forall_mem_singleton.2 rfl
  · exact h.reason?

/-! ## Merged signals that listen -/

variable {followed : List (Name Nat)} {limit : Option Nat} {now : Nat} {more : List (Task Nat)}

/-- A new merged signal comes after the others. -/
theorem merges_compose (s : Store Nat) (key : Nat) (sources : List (Name Nat))
    (timeout : Option Duration) :
    (s.compose key sources timeout).merges = s.merges ++ [(key,
      { sources
        deadline :=
          if (sources.findSome? s.reason?).isSome then none else s.deadline? timeout })] := by
  have hrelays : ∀ (l : List (Name Nat)) (t : Store Nat),
      (l.foldl (attachRelay key) t).merges = t.merges := by
    intro l
    induction l with
    | nil => exact fun _ => rfl
    | cons source l ih => exact fun t => ih (t.attachRelay key source)
  rw [Store.compose]
  split
  · next reason hfired => rw [hfired]; rfl
  · next hfired => rw [hfired, addMerged, hrelays]; rfl

/-- Some signal has fired that is followed, or the time has come. -/
def Cause (followed : List (Name Nat)) (limit : Option Nat) (now : Nat) (s : Store Nat) : Prop :=
  (∃ source ∈ followed, (s.reason? source).isSome = true) ∨ ∃ time, limit = some time ∧ time ≤ now

/-- A merged signal has reason to fire, and it has fired or a relay to it is on its way. -/
structure Reached (key : Nat) (followed : List (Name Nat)) (limit : Option Nat) (now : Nat)
    (tasks : List (Task Nat)) (s : Store Nat) : Prop where
  cause : Cause followed limit now s
  has : s.has (.merged key) = true
  fires : (∃ reason, .deliver (.relay key) reason ∈ tasks) ∨
    (s.reason? (.merged key)).isSome = true

/-- A merged signal waits as all do that it follows. It is attached to these and to no others, and
its timer will fire when the time has come. -/
structure Listens (key : Nat) (followed : List (Name Nat)) (limit : Option Nat)
    (tasks : List (Task Nat)) (s : Store Nat) : Prop where
  waits : s.waits (.merged key) = true
  sources : ∀ source ∈ followed, s.waits source = true
  attached : ∀ name, .relay key ∈ s.listeners name ↔ name ∈ followed
  known : (s.merge? key).isSome = true
  timer : ∀ m, (key, m) ∈ s.merges → m.deadline = limit
  /-- No relay to it is on its way. -/
  quiet : ∀ task ∈ tasks, task.concerns key = false

theorem Cause.work (h : Cause followed limit now s) (task : Task Nat) :
    Cause followed limit now (s.work task).store := by
  refine h.imp_left fun ⟨source, hsource, hfired⟩ => ⟨source, hsource, ?_⟩
  obtain ⟨reason, hreason⟩ := Option.isSome_iff_exists.1 hfired
  rw [(s.touched_work task).reason? hreason]
  rfl

theorem lasting_reached (key : Nat) (followed : List (Name Nat)) (limit : Option Nat) (now : Nat) :
    Lasting (Reached key followed limit now) where
  work task rest s h := by
    obtain ⟨hhas, hfires⟩ := (lasting_delivered key).work task rest s ⟨h.has, h.fires⟩
    exact ⟨h.cause.work task, hhas, hfires⟩
  expire _ _ _ h := ⟨h.cause, h.has, h.fires.imp_left fun ⟨_, hmem⟩ => absurd hmem List.not_mem_nil⟩
  clock _ _ h := ⟨h.cause, h.has, h.fires⟩

/-- When nothing remains to be done, the signal has fired. -/
theorem Reached.fired (h : Reached key followed limit now [] s) :
    (s.reason? (.merged key)).isSome = true :=
  h.fires.resolve_left fun ⟨_, hmem⟩ => List.not_mem_nil hmem

namespace Listens

theorem keep (h : Listens key followed limit tasks s)
    (hwaits : ∀ name, s.waits name = true → t.waits name = true)
    (hattached : ∀ name, .relay key ∈ t.listeners name ↔ .relay key ∈ s.listeners name)
    (hknown : (s.merge? key).isSome = true → (t.merge? key).isSome = true)
    (htimer : ∀ m, (key, m) ∈ t.merges → (key, m) ∈ s.merges) :
    Listens key followed limit tasks t where
  waits := hwaits _ h.waits
  sources source hsource := hwaits source (h.sources source hsource)
  attached name := (hattached name).trans (h.attached name)
  known := hknown h.known
  timer m hm := h.timer m (htimer m hm)
  quiet := h.quiet

theorem tail {task : Task Nat} (h : Listens key followed limit (task :: tasks) s) :
    Listens key followed limit tasks s :=
  { h with quiet := (List.forall_mem_cons.1 h.quiet).2 }

theorem append (h : Listens key followed limit tasks s)
    (hmore : ∀ task ∈ more, task.concerns key = false) :
    Listens key followed limit (more ++ tasks) s :=
  { h with quiet := List.forall_mem_append.2 ⟨hmore, h.quiet⟩ }

theorem attach (h : Listens key followed limit tasks s) (name : Name Nat) (label : String)
    (effects : List (Effect Nat)) :
    Listens key followed limit tasks (s.attach name label effects) := by
  refine h.keep ?_ ?_ (fun hknown => hknown) fun _ hm => hm
  · intro other hother
    rwa [Store.waits, has_attach, reason?_attach]
  · intro other
    rw [listeners_attach, List.mem_append, or_iff_left]
    split <;> simp

theorem unsubscribe (h : Listens key followed limit tasks s) (name : Name Nat) (id : Nat) :
    Listens key followed limit tasks (s.unsubscribe name id).1 := by
  refine h.keep ?_ ?_ (fun hknown => hknown) fun _ hm => hm
  · intro other hother
    rwa [Store.waits, has_unsubscribe, reason?_unsubscribe]
  · intro other
    rw [listeners_unsubscribe]
    split
    · rw [List.mem_filter]
      exact and_iff_left rfl
    · rfl

/-- What is kept about one key when the item under another one is changed. -/
theorem mem_of_mem_update {β : Type} {other : Nat} (hother : key ≠ other) {f : β → β}
    {l : List (Nat × β)} {m : β} (h : (key, m) ∈ update other f l) : (key, m) ∈ l := by
  induction l with
  | nil => exact h
  | cons entry l ih =>
    obtain ⟨k, b⟩ := entry
    by_cases hk : k = other
    · rw [update, if_pos hk] at h
      rcases List.mem_cons.1 h with h | h
      · exact absurd ((Prod.mk.inj h).1.trans hk) hother
      · exact List.mem_cons_of_mem _ h
    · rw [update, if_neg hk] at h
      rcases List.mem_cons.1 h with h | h
      · rw [h]
        exact List.mem_cons_self
      · exact List.mem_cons_of_mem _ (ih h)

/-- Another merged signal is detached. -/
theorem detach (h : Listens key followed limit tasks s) {other : Nat} (hother : key ≠ other) :
    Listens key followed limit tasks (s.detach other) := by
  refine h.keep ?_ ?_ ?_ fun _ hm => mem_of_mem_update hother hm
  · intro name hname
    rwa [Store.waits, has_detach, reason?_detach]
  · intro name
    rw [listeners_detach, List.mem_filter]
    exact and_iff_left (by simpa using hother)
  · rw [merge?_detach, if_neg hother]
    exact id

/-- Another merged signal is cleared. -/
theorem clear (h : Listens key followed limit tasks s) {other : Nat} (hother : key ≠ other) :
    Listens key followed limit tasks (s.clear other) := by
  refine (h.detach hother).keep ?_ (fun _ => Iff.rfl) ?_ fun _ hm => mem_of_mem_update hother hm
  · intro name hname
    exact hname
  · rw [merge?_clear, if_neg hother, merge?_detach, if_neg hother]
    exact id

theorem addController (h : Listens key followed limit tasks s) (n : Nat) :
    Listens key followed limit tasks (s.addController n) := by
  refine h.keep ?_ ?_ id fun _ hm => hm
  · intro name hname
    rw [Store.waits, has_addController, reason?_addController, has_of_waits hname,
      reason?_of_waits hname]
    rfl
  · intro name
    rw [listeners_addController]

/-- Another signal is merged. -/
theorem compose (h : Listens key followed limit tasks s) {other : Nat} (hother : key ≠ other)
    (hnew : s.has (.merged other) = false) (sources : List (Name Nat))
    (timeout : Option Duration) :
    Listens key followed limit tasks (s.compose other sources timeout) := by
  refine h.keep ?_ ?_ ?_ ?_
  · intro name hname
    have hne : name ≠ .merged other := by
      rintro rfl
      exact Bool.noConfusion (hnew.symm.trans (has_of_waits hname))
    rw [Store.waits, has_compose, reason?_compose_of_ne _ _ _ _ hne, has_of_waits hname,
      reason?_of_waits hname]
    rfl
  · intro name
    rw [listeners_compose, List.mem_append, or_iff_left]
    intro hmem
    exact hother (Listener.relay.inj (List.eq_of_mem_replicate hmem))
  · rw [merge?_compose_of_ne _ hother]
    exact id
  · intro m hm
    rw [merges_compose] at hm
    rcases List.mem_append.1 hm with hm | hm
    · exact hm
    · exact absurd (Prod.mk.inj (List.mem_singleton.1 hm)).1 hother

/-- A signal fires. If it is followed, the relay is on its way now. -/
theorem fire (h : Listens key followed limit tasks s) {name : Name Nat}
    (hwaits : s.waits name = true) (hname : name ≠ .merged key) (reason : AbortReason) (now : Nat) :
    Listens key followed limit (deliverAll (s.listeners name) reason ++ tasks)
        (s.markFired name reason) ∨
      Reached key followed limit now (deliverAll (s.listeners name) reason ++ tasks)
        (s.markFired name reason) := by
  -- The relay is attached to what is followed and to nothing else, so this decides whether it is
  -- among the listeners that are called now.
  by_cases hfollowed : name ∈ followed
  · refine .inr ⟨.inl ⟨name, hfollowed, ?_⟩, ?_, .inl ⟨reason, ?_⟩⟩
    · rw [reason?_markFired (has_of_waits hwaits), if_pos rfl]
      rfl
    · rw [has_markFired]
      exact has_of_waits h.waits
    · exact List.mem_append_left _ (List.mem_map_of_mem ((h.attached name).2 hfollowed))
  · have hstill : ∀ other, other ≠ name → s.waits other = true →
        (s.markFired name reason).waits other = true := by
      intro other hother hwaiting
      rwa [Store.waits, has_markFired, reason?_markFired (has_of_waits hwaits), if_neg hother]
    refine .inl ⟨hstill _ (Ne.symm hname) h.waits, fun source hsource => ?_, fun other => ?_,
      h.known, h.timer, List.forall_mem_append.2 ⟨?_, h.quiet⟩⟩
    · refine hstill source ?_ (h.sources source hsource)
      rintro rfl
      exact hfollowed hsource
    · rw [listeners_markFired]
      split
      · next hother =>
        subst hother
        exact iff_of_false List.not_mem_nil hfollowed
      · exact h.attached other
    · refine List.forall_mem_map.2 fun listener hlistener => ?_
      cases listener with
      | call id label effects => rfl
      | relay k =>
        refine decide_eq_false ?_
        rintro rfl
        exact hfollowed ((h.attached name).1 hlistener)

/-- Every gentle work keeps that the signal listens, or reaches it. -/
theorem work {task : Task Nat} (h : Listens key followed limit (task :: rest) s)
    (hgentle : task.isGentle reason = true) (now : Nat) :
    Listens key followed limit ((s.work task).tasks ++ rest) (s.work task).store ∨
      Reached key followed limit now ((s.work task).tasks ++ rest) (s.work task).store := by
  have htask := h.quiet task List.mem_cons_self
  have hworks := s.gently_work hgentle
  generalize s.work task = w at hworks
  cases hworks with
  | same _ hquiet => exact .inl (h.tail.append (hquiet key))
  | fired hwaits hname _ hquiet =>
    rw [List.append_assoc]
    exact (h.tail.append (hquiet key htask)).fire hwaits (hname key htask) reason now
  | attached name label => exact .inl (h.tail.attach name label [])
  | detached hother => exact .inl (h.tail.detach (hother key htask))

theorem exists_merge (h : Listens key followed limit tasks s) :
    ∃ m, s.merge? key = some m ∧ (key, m) ∈ s.merges ∧ m.deadline = limit := by
  obtain ⟨m, hm⟩ := Option.isSome_iff_exists.1 h.known
  obtain ⟨before, after, hmerges, -⟩ := List.lookup_eq_some_iff.1 hm
  have hmem : (key, m) ∈ s.merges := by
    rw [hmerges]
    exact List.mem_append_right _ List.mem_cons_self
  exact ⟨m, hm, hmem, h.timer m hmem⟩

/-- The timer of a signal that listens runs. -/
theorem hasTimer (h : Listens key followed limit tasks s) {time : Nat}
    (hlimit : limit = some time) : s.hasTimer key = true := by
  obtain ⟨m, hm, -, hdeadline⟩ := h.exists_merge
  rw [Store.hasTimer, hm, Option.bind_some, hdeadline, hlimit]
  rfl

end Listens

/-- A new merged signal listens, unless a signal has fired that it follows. -/
theorem listens_compose (hnew : s.has (.merged key) = false) (hmerge : s.merge? key = none)
    (hrelay : ∀ name, .relay key ∉ s.listeners name) {sources : List (Name Nat)}
    (hunfired : sources.findSome? s.reason? = none) (timeout : Option Duration) :
    Listens key (sources.filter s.has) (s.deadline? timeout) []
      (s.compose key sources timeout) where
  waits := by
    rw [waits, has_compose, reason?_compose (state?_eq_none_of_not_has hnew), hunfired]
    simp
  sources source hsource := by
    obtain ⟨hmem, hhas⟩ := List.mem_filter.1 hsource
    have hne : source ≠ .merged key := by
      rintro rfl
      exact Bool.noConfusion (hnew.symm.trans hhas)
    rw [waits, has_compose, reason?_compose_of_ne _ _ _ _ hne, hhas,
      List.findSome?_eq_none_iff.1 hunfired source hmem]
    rfl
  attached name := by
    rw [listeners_compose, hunfired, List.mem_append, or_iff_right (hrelay name),
      List.mem_replicate, ← List.count_pos_iff]
    simp [Nat.pos_iff_ne_zero]
  known := by
    rw [merge?_compose hmerge]
    rfl
  timer m hm := by
    rw [merges_compose, hunfired] at hm
    rcases List.mem_append.1 hm with hm | hm
    · have hne := List.lookup_eq_none_iff.1 hmerge _ hm
      simp at hne
    · rw [(Prod.mk.inj (List.mem_singleton.1 hm)).2]
      rfl
  quiet := List.forall_mem_nil _

/-! ## Cascades and timers -/

/-- A merged signal listens or is reached, while listeners are passive. -/
structure Attends (reason : AbortReason) (key : Nat) (followed : List (Name Nat))
    (limit : Option Nat) (now : Nat) (tasks : List (Task Nat)) (s : Store Nat) : Prop where
  gentle : Gentle reason tasks s
  attends : Listens key followed limit tasks s ∨ Reached key followed limit now tasks s

theorem Attends.work {task : Task Nat}
    (h : Attends reason key followed limit now (task :: rest) s) :
    Attends reason key followed limit now ((s.work task).tasks ++ rest) (s.work task).store := by
  refine ⟨h.gentle.work, ?_⟩
  rcases h.attends with hlistens | hreached
  · exact hlistens.work (h.gentle.gentle task List.mem_cons_self) now
  · exact .inr ((lasting_reached key followed limit now).work task rest s hreached)

theorem Attends.run (h : Attends reason key followed limit now tasks s) :
    Attends reason key followed limit now [] (s.run tasks).1 :=
  run_of_work (fun _ _ _ h => h.work) h

/-- The timer of another merged signal fires. -/
theorem Attends.expire (h : Attends .timedOut key followed limit now [] s) {other : Nat}
    (hother : key ≠ other) : Attends .timedOut key followed limit now [] (s.expire other).1 := by
  rw [Store.expire]
  split
  · have hquiet : ∀ task ∈ [Task.deliver (.relay other) .timedOut], task.concerns key = false :=
      List.forall_mem_singleton.2 (decide_eq_false hother.symm)
    refine Attends.run ⟨⟨h.gentle.passive, List.forall_mem_singleton.2 rfl⟩, h.attends.imp ?_ ?_⟩
    · exact fun hlistens => hlistens.append hquiet
    · exact fun hreached => ⟨hreached.cause, hreached.has, .inr hreached.fired⟩
  · exact h

/-- The timers of other merged signals fire. -/
theorem Attends.expireAll {keys : List Nat} (hkey : key ∉ keys)
    (h : Attends .timedOut key followed limit now [] s) :
    Attends .timedOut key followed limit now [] (expireAll keys s).1 := by
  induction keys generalizing s with
  | nil => exact h
  | cons other keys ih =>
    obtain ⟨hother, hkeys⟩ := not_or.1 (mt List.mem_cons.2 hkey)
    exact ih hkeys (h.expire hother)

/-- A timer that is due reaches its signal. -/
theorem Attends.reached_expireAll {keys : List Nat} (hkey : key ∈ keys) {time : Nat}
    (hlimit : limit = some time) (hdue : time ≤ now)
    (h : Attends .timedOut key followed limit now [] s) :
    Reached key followed limit now [] (Store.expireAll keys s).1 := by
  have hlasting := lasting_reached key followed limit now
  induction keys generalizing s with
  | nil => cases hkey
  | cons other keys ih =>
    by_cases hother : key = other
    · subst hother
      -- The timer of another signal may have reached it before, in the same move of the clock.
      have hfirst : Reached key followed limit now [] (s.expire key).1 := by
        rcases h.attends with hlistens | hreached
        · rw [Store.expire, if_pos (hlistens.hasTimer hlimit)]
          exact hlasting.run ⟨.inr ⟨time, hlimit, hdue⟩, has_of_waits hlistens.waits,
            .inl ⟨.timedOut, List.mem_cons_self⟩⟩
        · exact hlasting.expire_of hreached key
      exact hlasting.expireAll hfirst keys
    · exact ih (List.mem_of_ne_of_mem hother hkey) (h.expire hother)

/-- A timer is due if its time has come. -/
theorem mem_due_iff {k : Nat} :
    k ∈ s.due ↔ ∃ m time, (k, m) ∈ s.merges ∧ m.deadline = some time ∧ time ≤ s.now := by
  rw [due, List.mem_map]
  constructor
  · rintro ⟨timer, htimer, rfl⟩
    obtain ⟨⟨k, m⟩, hmem, hsome⟩ := List.mem_filterMap.1 (List.mem_mergeSort.1 htimer)
    obtain ⟨time, htime, rfl⟩ := Option.map_eq_some_iff.1 hsome
    obtain ⟨hdeadline, hle⟩ := Option.filter_eq_some_iff.1 htime
    exact ⟨m, time, hmem, hdeadline, of_decide_eq_true hle⟩
  · rintro ⟨m, time, hmem, hdeadline, hle⟩
    refine ⟨(time, k), List.mem_mergeSort.2 (List.mem_filterMap.2 ⟨(k, m), hmem, ?_⟩), rfl⟩
    simp [hdeadline, Option.filter, hle]

theorem now_work (s : Store Nat) (task : Task Nat) : (s.work task).store.now = s.now := by
  have htouched := s.touched_work task
  generalize (s.work task).store = t at htouched
  cases htouched <;> rfl

/-- A cascade takes no time. -/
theorem now_run (tasks : List (Task Nat)) (s : Store Nat) : (s.run tasks).1.now = s.now :=
  run_of_work (P := fun _ t => t.now = s.now) (fun task _ t ht => (t.now_work task).trans ht) rfl

theorem now_advance (s : Store Nat) (d : Duration) :
    (s.advance d).1.now = s.now + d.nanoseconds :=
  expireAll_of_work (P := fun _ t => t.now = s.now + d.nanoseconds)
    (fun task _ t ht => (t.now_work task).trans ht) (fun _ _ _ _ ht => ht) rfl

/-- The clock moves past the timer of a signal only if it reaches the signal. -/
theorem Listens.advance (h : Listens key followed limit [] s) (hpassive : s.Passive)
    (d : Duration) :
    (Listens key followed limit [] (s.advance d).1 ∧
        ∀ time, limit = some time → (s.advance d).1.now < time) ∨
      Reached key followed limit (s.advance d).1.now [] (s.advance d).1 := by
  let later : Store Nat := { s with now := s.now + d.nanoseconds }
  have hnow : (s.advance d).1.now = later.now := now_advance s d
  have hlater : Attends .timedOut key followed limit later.now [] later :=
    ⟨⟨hpassive, List.forall_mem_nil _⟩, .inl (h.keep (fun _ hwaits => hwaits) (fun _ => Iff.rfl)
      (fun hknown => hknown) fun _ hm => hm)⟩
  rw [hnow]
  by_cases hdue : key ∈ later.due
  · obtain ⟨m, time, hmem, hdeadline, hle⟩ := mem_due_iff.1 hdue
    exact .inr (hlater.reached_expireAll hdue ((h.timer m hmem).symm.trans hdeadline) hle)
  · refine (hlater.expireAll hdue).attends.imp_left fun hlistens => ⟨hlistens, ?_⟩
    intro time hlimit
    obtain ⟨m, -, hmem, hdeadline⟩ := h.exists_merge
    by_contra hnot
    exact hdue (mem_due_iff.2 ⟨m, time, hmem, hdeadline.trans hlimit, Nat.le_of_not_lt hnot⟩)

end Store

end DaemonRpc.Signal

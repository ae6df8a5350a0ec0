import DaemonRpc.Signal.Composition
import Mathlib.Data.List.Nodup

/-!
# Facts about stores of signals

How lists by key are changed and looked up when they are made from other lists, how each operation
of a store changes the state of every signal (`Store.state?_change` and the like), and what one task
of a cascade does: to fire a signal that is not there, has fired or waits. Clearing a merged signal
fires nothing (`Store.reason?_clear`), and a new one has fired if one of its sources has
(`Store.reason?_compose`).
-/

namespace DaemonRpc.Signal

/-! ## Lists by key -/

section Keyed

variable {α β γ : Type} [DecidableEq α] {k : γ → α} {v : γ → β}

/-- Changing the item under a key that occurs once. -/
theorem update_map {l : List γ} (h : (l.map k).Nodup) (key : α) (f : β → β) :
    update key f (l.map fun a => (k a, v a)) =
      l.map fun a => (k a, if k a = key then f (v a) else v a) := by
  induction l with
  | nil => rfl
  | cons a l ih =>
    obtain ⟨hnot, hrest⟩ := List.nodup_cons.1 h
    simp only [List.map_cons, update]
    by_cases ha : k a = key
    · rw [if_pos ha, if_pos ha]
      -- The key occurs at the head, so nothing changes after it.
      have hsame : ∀ b ∈ l, (k b, v b) = (k b, if k b = key then f (v b) else v b) := by
        intro b hb
        rw [if_neg]
        rintro hk
        exact hnot (List.mem_map.2 ⟨b, hb, hk.trans ha.symm⟩)
      rw [List.map_congr_left hsame]
    · rw [if_neg ha, if_neg ha, ih hrest]

theorem update_of_not_mem {l : List (α × β)} {key : α} (h : key ∉ l.map Prod.fst) (f : β → β) :
    update key f l = l := by
  induction l with
  | nil => rfl
  | cons entry l ih =>
    obtain ⟨a, b⟩ := entry
    simp only [List.map_cons, List.mem_cons, not_or] at h
    simp only [update, if_neg (Ne.symm h.1), ih h.2]

/-- Changing the item under a key that occurs in one of two lists at most. -/
theorem update_append {l m : List (α × β)} {key : α}
    (h : key ∉ l.map Prod.fst ∨ key ∉ m.map Prod.fst) (f : β → β) :
    update key f (l ++ m) = update key f l ++ update key f m := by
  induction l with
  | nil => rfl
  | cons entry l ih =>
    obtain ⟨a, b⟩ := entry
    simp only [List.map_cons, List.mem_cons, not_or] at h
    simp only [List.cons_append, update]
    -- Only the first item under the key is changed: if it is in `l`, then `m` has none.
    by_cases ha : a = key
    · have hm : key ∉ m.map Prod.fst := h.resolve_left fun hl => hl.1 ha.symm
      rw [if_pos ha, if_pos ha, update_of_not_mem hm, List.cons_append]
    · rw [if_neg ha, if_neg ha, ih (h.imp_left And.right), List.cons_append]

theorem lookup_map_of_mem {l : List γ} (h : (l.map k).Nodup) {a : γ} (ha : a ∈ l) :
    (l.map fun a => (k a, v a)).lookup (k a) = some (v a) := by
  induction l with
  | nil => simp at ha
  | cons b l ih =>
    obtain ⟨hnot, hrest⟩ := List.nodup_cons.1 h
    rcases List.mem_cons.1 ha with rfl | ha
    · simp
    · have hne : k a ≠ k b := by
        rintro heq
        exact hnot (List.mem_map.2 ⟨a, ha, heq⟩)
      rw [List.map_cons, List.lookup_cons, beq_false_of_ne hne]
      exact ih hrest ha

theorem lookup_map_of_not_mem {l : List γ} {key : α} (h : key ∉ l.map k) :
    (l.map fun a => (k a, v a)).lookup key = none := by
  rw [List.lookup_eq_none_iff]
  rintro _ hp
  obtain ⟨a, ha, rfl⟩ := List.mem_map.1 hp
  rw [bne_iff_ne]
  rintro rfl
  exact h (List.mem_map.2 ⟨a, ha, rfl⟩)

end Keyed

/-! ## Signals after an operation -/

namespace Store

variable {κ : Type} [DecidableEq κ]

theorem state?_change (s : Store κ) (name other : Name κ) (f : Entry κ → Entry κ) :
    (s.change name f).state? other =
      if other = name then (s.state? other).map f else s.state? other :=
  lookup_update name other f s.entries

/-- Detaching a merged signal touches every signal, but only its listeners. -/
theorem state?_detach (s : Store κ) (key : κ) (name : Name κ) :
    (s.detach key).state? name = (s.state? name).map (withoutRelay key) := by
  simp only [state?, detach]
  induction s.entries with
  | nil => rfl
  | cons entry entries ih =>
    obtain ⟨n, e⟩ := entry
    cases hname : name == n <;> simp [List.lookup_cons, hname, ih]

theorem state?_clear (s : Store κ) (key : κ) (name : Name κ) :
    (s.clear key).state? name = (s.state? name).map (withoutRelay key) :=
  s.state?_detach key name

theorem state?_addMerged (s : Store κ) (key : κ) (e : Entry κ) (m : Merge κ) (name : Name κ) :
    (s.addMerged key e m).state? name =
      (s.state? name).or (if name = .merged key then some e else none) := by
  simp only [state?, addMerged, List.lookup_append, List.lookup_cons, List.lookup_nil]
  by_cases h : name = .merged key
  · simp [h]
  · simp [h, beq_false_of_ne h]

theorem state?_addController (s : Store κ) (n : Nat) (name : Name κ) :
    (s.addController n).state? name =
      (s.state? name).or (if name = .controller n then some {} else none) := by
  simp only [state?, addController, List.lookup_append, List.lookup_cons, List.lookup_nil]
  by_cases h : name = .controller n
  · simp [h]
  · simp [h, beq_false_of_ne h]

/-- A relay is attached for each occurrence among the signals. -/
theorem state?_attachRelays (s : Store κ) (key : κ) (sources : List (Name κ)) (name : Name κ) :
    (sources.foldl (attachRelay key) s).state? name = (s.state? name).map fun e =>
      { e with listeners := e.listeners ++ List.replicate (sources.count name) (.relay key) } := by
  induction sources generalizing s with
  | nil => simp
  | cons source sources ih =>
    rw [List.foldl_cons, ih, attachRelay, state?_change]
    by_cases h : name = source
    · subst h
      cases s.state? name <;> simp [List.replicate_succ]
    · rw [if_neg h, List.count_cons_of_ne (Ne.symm h)]

theorem merge?_attachRelays (s : Store κ) (key : κ) (sources : List (Name κ)) (other : κ) :
    (sources.foldl (attachRelay key) s).merge? other = s.merge? other := by
  induction sources generalizing s with
  | nil => rfl
  | cons source sources ih => exact ih (attachRelay key s source)

theorem now_attachRelays (s : Store κ) (key : κ) (sources : List (Name κ)) :
    (sources.foldl (attachRelay key) s).now = s.now := by
  induction sources generalizing s with
  | nil => rfl
  | cons source sources ih => exact ih (attachRelay key s source)

/-- Merging signals takes no time. -/
theorem now_compose (s : Store κ) (key : κ) (sources : List (Name κ)) (timeout : Option Duration) :
    (s.compose key sources timeout).now = s.now := by
  rw [compose]
  split
  · rfl
  · exact now_attachRelays s key sources

theorem merge?_detach (s : Store κ) (key other : κ) :
    (s.detach key).merge? other =
      if other = key then (s.merge? other).map ({ · with deadline := none }) else s.merge? other :=
  lookup_update key other _ s.merges

theorem merge?_clear (s : Store κ) (key other : κ) :
    (s.clear key).merge? other =
      if other = key then (s.merge? other).map ({ · with deadline := none, cleared := true })
      else s.merge? other := by
  -- The timer is stopped first, and then the mark is set.
  have hmark : (s.clear key).merge? other = if other = key
      then ((s.detach key).merge? other).map ({ · with cleared := true })
      else (s.detach key).merge? other := lookup_update key other _ (s.detach key).merges
  rw [hmark, merge?_detach]
  split
  · rw [Option.map_map]
    rfl
  · rfl

theorem merge?_addMerged (s : Store κ) (key : κ) (e : Entry κ) (m : Merge κ) (other : κ) :
    (s.addMerged key e m).merge? other =
      (s.merge? other).or (if other = key then some m else none) := by
  simp only [merge?, addMerged, List.lookup_append, List.lookup_cons, List.lookup_nil]
  by_cases h : other = key
  · simp [h]
  · simp [h, beq_false_of_ne h]

end Store

/-! ## Firing one signal -/

namespace Store

variable {κ : Type} [DecidableEq κ] {s : Store κ} {name : Name κ}

theorem run_fire_of_unknown (h : s.state? name = none) (reason : AbortReason)
    (rest : List (Task κ)) : s.run (.fire name reason :: rest) = s.run rest := by
  rw [run]
  split
  · rfl
  · next e he => simp [h] at he

theorem run_fire_of_fired {e : Entry κ} (h : s.state? name = some e) (hfired : e.reason.isSome)
    (reason : AbortReason) (rest : List (Task κ)) :
    s.run (.fire name reason :: rest) = s.run rest := by
  rw [run]
  split
  · rfl
  · next e' he =>
    obtain rfl : e = e' := by simpa [h] using he
    rw [dif_neg]
    rintro hnone
    simp [hnone] at hfired

/-- Firing a signal that waits calls what is attached to it. -/
theorem run_fire_of_waiting {e : Entry κ} (h : s.state? name = some e) (hwaits : e.reason = none)
    (reason : AbortReason) (rest : List (Task κ)) :
    s.run (.fire name reason :: rest) =
      (s.markFired name reason).run (deliverAll e.listeners reason ++ rest) := by
  rw [run]
  split
  · next hnone => simp [h] at hnone
  · next e' he =>
    obtain rfl : e = e' := by simpa [h] using he
    rw [dif_pos hwaits]

/-- Clearing a merged signal fires nothing. -/
theorem reason?_clear (s : Store κ) (key : κ) (name : Name κ) :
    (s.clear key).reason? name = s.reason? name := by
  rw [reason?, state?_clear, Option.bind_map]
  rfl

/-- A new merged signal has fired if one of its sources has. -/
theorem reason?_compose {key : κ} (h : s.state? (.merged key) = none) (sources : List (Name κ))
    (timeout : Option Duration) :
    (s.compose key sources timeout).reason? (.merged key) = sources.findSome? s.reason? := by
  cases hfired : sources.findSome? s.reason? with
  | some reason => simp [compose, hfired, reason?, state?_addMerged, h]
  | none => simp [compose, hfired, reason?, state?_addMerged, state?_attachRelays, h]

end Store

end DaemonRpc.Signal

import DaemonRpc.Proofs.Session.Calls
import DaemonRpc.Proofs.Signal.Waiting

/-!
# The books of a session

What a session owes for its calls, apart from how slots are kept: a ledger of the signals, which
calls are live, which of them hold a body, the bodies that were handed over, and how many were let
go of. `Balanced` says that these fit together; a call that is dispatched (`Balanced.dispatch`), a
turn of a live call (`Balanced.settle`), an abort and a move of the clock keep it so.
-/

namespace DaemonRpc

open Signal

/-- A body that the network handed over, with the key of its call. -/
abbrev Arrival := CallKey × BodySource

/-- The body is still to be let go of if its call is live. -/
def Arrival.isHeld (live : CallKey → Bool) (a : Arrival) : Bool := a.2.tracked && live a.1

/-- A call without a body changes nothing for the bodies of others. -/
theorem countP_replace_of_not_mem {arrivals : List Arrival} {key : CallKey}
    (h : key ∉ arrivals.map Prod.fst) (live : CallKey → Bool) (b : Bool) :
    arrivals.countP (Arrival.isHeld (replace live key b)) =
      arrivals.countP (Arrival.isHeld live) := by
  apply List.countP_congr
  intro a ha
  have hne : a.1 ≠ key := by
    rintro rfl
    exact h (List.mem_map.2 ⟨a, ha, rfl⟩)
  rw [Arrival.isHeld, replace_of_ne live b hne]
  rfl

/-- A call with a body counts for its own body. -/
theorem countP_replace_of_mem {arrivals : List Arrival} (hnodup : (arrivals.map Prod.fst).Nodup)
    {key : CallKey} {body : BodySource} (h : (key, body) ∈ arrivals) (live : CallKey → Bool)
    (b : Bool) :
    arrivals.countP (Arrival.isHeld (replace live key b)) + (body.tracked && live key).toNat =
      arrivals.countP (Arrival.isHeld live) + (body.tracked && b).toNat := by
  induction arrivals with
  | nil => simp at h
  | cons a arrivals ih =>
    obtain ⟨hnot, hrest⟩ := List.nodup_cons.1 hnodup
    rw [List.countP_cons, List.countP_cons]
    -- The body of the call is here or further on, but not in both places.
    rcases List.mem_cons.1 h with rfl | h
    · have htoNat : ∀ x : Bool, (if x = true then 1 else 0) = x.toNat := by decide
      rw [countP_replace_of_not_mem hnot, htoNat, htoNat]
      simp only [Arrival.isHeld, replace_self]
      omega
    · have hne : a.1 ≠ key := by
        rintro rfl
        exact hnot (List.mem_map.2 ⟨_, h, rfl⟩)
      have hsame : Arrival.isHeld (replace live key b) a = Arrival.isHeld live a := by
        rw [Arrival.isHeld, replace_of_ne live b hne]
        rfl
      rw [hsame]
      have := ih hrest h
      omega

/-- The books are balanced: the signals that are not cleared are those of live calls, a live call
holds the body that was handed over to it, each body was handed over once, and all bodies but those
that are still held were let go of. -/
structure Balanced (l : Ledger CallKey) (released : Nat) (live : CallKey → Bool)
    (held : CallKey → Option Bool) (arrivals : List Arrival) : Prop where
  distinct : l.Distinct
  truthful : l.Truthful
  cleared : ∀ r ∈ l.records, r.cleared = !live r.ticket.key
  once : (arrivals.map Prod.fst).Nodup
  arrived : ∀ key body, (key, body) ∈ arrivals → live key = true → held key = some body.tracked
  holds : ∀ key, (held key).isSome = true → live key = true ∧ key ∈ arrivals.map Prod.fst
  released : released + arrivals.countP (Arrival.isHeld live) = arrivals.length

namespace Balanced

variable {l : Ledger CallKey} {released : Nat} {live : CallKey → Bool}
  {held : CallKey → Option Bool} {arrivals : List Arrival}

/-- A call that is not live holds nothing. -/
theorem held_of_not_live (h : Balanced l released live held arrivals) {key : CallKey}
    (hlive : live key = false) : held key = none := by
  rw [← Option.not_isSome_iff_eq_none]
  intro hsome
  have := (h.holds key hsome).1
  simp [hlive] at this

/-- A call that holds nothing was handed no body, as long as it is live. -/
theorem not_mem_of_held (h : Balanced l released live held arrivals) {key : CallKey}
    (hlive : live key = true) (hheld : held key = none) : key ∉ arrivals.map Prod.fst := by
  intro hmem
  obtain ⟨⟨_, body⟩, ha, rfl⟩ := List.mem_map.1 hmem
  simp [h.arrived _ body ha hlive] at hheld

/-- The books stay balanced if signals only fire. -/
theorem of_records (h : Balanced l released live held arrivals) {m : Ledger CallKey}
    (hrecords : m.records.map (fun r => (r.ticket, r.cleared)) =
      l.records.map fun r => (r.ticket, r.cleared)) (htruthful : m.Truthful) :
    Balanced m released live held arrivals := by
  refine { h with distinct := ?_, truthful := htruthful, cleared := ?_ }
  · have hkeys := congrArg (List.map fun p => p.1.key) hrecords
    rw [List.map_map, List.map_map] at hkeys
    exact (congrArg List.Nodup hkeys).mpr h.distinct
  · intro r hr
    have hmem : (r.ticket, r.cleared) ∈ l.records.map fun r => (r.ticket, r.cleared) := by
      rw [← hrecords]
      exact List.mem_map.2 ⟨r, hr, rfl⟩
    obtain ⟨r', hr', heq⟩ := List.mem_map.1 hmem
    obtain ⟨hticket, hcleared⟩ := Prod.mk.inj heq
    rw [← hcleared, ← hticket]
    exact h.cleared r' hr'

/-- A controller is aborted. -/
theorem abort (h : Balanced l released live held arrivals) (c : Nat) :
    Balanced (l.abort c) released live held arrivals :=
  h.of_records (l.records_abort c) (h.truthful.abort c)

/-- The clock moves. -/
theorem advance (h : Balanced l released live held arrivals) (d : Duration) :
    Balanced (l.advance d) released live held arrivals :=
  h.of_records (l.records_advance d) (h.truthful.advance d)

/-- A call is dispatched under a new key, perhaps with a signal. -/
theorem dispatch (h : Balanced l released live held arrivals) {key : CallKey}
    (hrecords : key ∉ l.records.map (·.ticket.key)) (harrivals : key ∉ arrivals.map Prod.fst)
    {t : Option (Ticket CallKey)} (ht : ∀ u ∈ t, u.key = key ∧ u.hasElapsed l.now = false) :
    Balanced ((t.map l.issue).getD l) released (replace live key true) (replace held key none)
      arrivals := by
  -- No body has come under the key, so all that is known of other calls stays.
  have hother : ∀ a ∈ arrivals, a.1 ≠ key := by
    rintro a ha rfl
    exact harrivals (List.mem_map.2 ⟨a, ha, rfl⟩)
  have hcleared : ∀ r ∈ l.records, r.cleared = !replace live key true r.ticket.key := by
    intro r hr
    rw [replace_of_ne]
    · exact h.cleared r hr
    · rintro rfl
      exact hrecords (List.mem_map.2 ⟨r, hr, rfl⟩)
  have hrest : Balanced l released (replace live key true) (replace held key none) arrivals := by
    refine { h with cleared := hcleared, arrived := ?_, holds := ?_, released := ?_ }
    · intro k body hmem hlive
      have hne := hother _ hmem
      rw [replace_of_ne held none hne]
      rw [replace_of_ne live true hne] at hlive
      exact h.arrived k body hmem hlive
    · intro k hsome
      by_cases hk : k = key
      · simp [hk] at hsome
      · rw [replace_of_ne held none hk] at hsome
        rw [replace_of_ne live true hk]
        exact h.holds k hsome
    · rw [countP_replace_of_not_mem harrivals]
      exact h.released
  cases t with
  | none => exact hrest
  | some u =>
    obtain ⟨rfl, helapsed⟩ := ht u rfl
    refine { hrest with distinct := ?_, truthful := h.truthful.issue helapsed, cleared := ?_ }
    · have hkeys : (l.issue u).records.map (·.ticket.key) =
          l.records.map (·.ticket.key) ++ [u.key] := List.map_append
      apply (congrArg List.Nodup hkeys).mpr
      exact List.nodup_append_comm.1 (List.nodup_cons.2 ⟨hrecords, h.distinct⟩)
    · intro r hr
      rcases List.mem_append.1 hr with hr | hr
      · exact hcleared r hr
      · obtain rfl := List.mem_singleton.1 hr
        simp

/-- A turn of a live call holds what came in it or what was there. -/
theorem held_of_next {before : Option Bool} {arrived : Option BodySource}
    {next : Option Activity} {more : Nat} (hturn : Balances before arrived next more)
    (hlive : next.any (·.isLive) = true) {b : Bool}
    (hbefore : before.or (arrived.map (·.tracked)) = some b) :
    next.bind (·.held?) = some b := by
  obtain ⟨a, rfl, ha⟩ := (Option.any_eq_true _ _).1 hlive
  have hkeeps := hturn.keeps
  rw [hbefore] at hkeeps
  refine hkeeps.resolve_left fun hnone => ?_
  have := hturn.waits a rfl ha hnone
  simp [hbefore] at this

/-- Only live calls hold bodies. -/
theorem isLive_of_held {next : Option Activity} (h : (next.bind (·.held?)).isSome = true) :
    next.any (·.isLive) = true := by
  cases next with
  | none => simp at h
  | some a => exact Activity.isLive_iff.2 (.inl h)

/-- How many tracked bodies a turn leaves held of one that was there or came. -/
theorem heldCount_next {before : Option Bool} {arrived : Option BodySource}
    {next : Option Activity} {more : Nat} (hturn : Balances before arrived next more) {b : Bool}
    (hbefore : before.or (arrived.map (·.tracked)) = some b) :
    heldCount (next.bind (·.held?)) = (b && next.any (·.isLive)).toNat := by
  cases hon : next.any (·.isLive) with
  | true =>
    rw [held_of_next hturn hon hbefore, Bool.and_true]
    rfl
  | false =>
    have hnone : next.bind (·.held?) = none := by
      rw [← Option.not_isSome_iff_eq_none]
      intro hsome
      simp [isLive_of_held hsome] at hon
    rw [hnone, Bool.and_false]
    rfl

/-- The signal of a call is cleared when the call is over. -/
theorem cleared_settle (h : Balanced l released live held arrivals) {key : CallKey}
    (hlive : live key = true) (on : Bool) :
    ∀ r ∈ (if on then l else l.clear key).records,
      r.cleared = !replace live key on r.ticket.key := by
  cases on with
  | true =>
    have hsame : replace live key true = live := by
      ext k : 1
      by_cases hk : k = key <;> simp [replace, hk, hlive]
    rw [hsame]
    exact h.cleared
  | false =>
    intro r hr
    obtain ⟨r', hr', rfl⟩ := List.mem_map.1 hr
    by_cases hkey : r'.ticket.key = key
    · simp [hkey, Record.clear]
    · simp only [hkey, if_false, replace_of_ne live false hkey]
      exact h.cleared r' hr'

/-- A live call takes a turn. -/
theorem settle (h : Balanced l released live held arrivals) {key : CallKey}
    (hlive : live key = true) {arrived : Option BodySource}
    (harrived : arrived.isSome = true → held key = none) {next : Option Activity} {more : Nat}
    (hturn : Balances (held key) arrived next more) :
    Balanced (if next.any (·.isLive) then l else l.clear key) (released + more)
      (replace live key (next.any (·.isLive))) (replace held key (next.bind (·.held?)))
      (arrivals ++ arrived.toList.map (key, ·)) where
  distinct := by
    split
    · exact h.distinct
    · exact h.distinct.modify Record.closes_clear key
  truthful := by
    split
    · exact h.truthful
    · exact h.truthful.clear key
  cleared := h.cleared_settle hlive _
  once := by
    cases arrived with
    | none => simpa using h.once
    | some body =>
      have hnot := h.not_mem_of_held hlive (harrived rfl)
      simp only [Option.toList_some, List.map_cons, List.map_nil, List.map_append]
      exact List.nodup_append_comm.1 (List.nodup_cons.2 ⟨hnot, h.once⟩)
  -- A body that is still held is the one that was there or came in this turn.
  arrived := by
    intro k body hmem hon
    by_cases hk : k = key
    · subst hk
      rw [replace_self] at hon ⊢
      apply held_of_next hturn hon
      rcases List.mem_append.1 hmem with hmem | hmem
      · rw [h.arrived k body hmem hlive, Option.some_or]
      · obtain ⟨b, hb, heq⟩ := List.mem_map.1 hmem
        obtain rfl := (Prod.mk.inj heq).2
        have hsome := Option.mem_toList.1 hb
        rw [harrived (by rw [hsome]; rfl), hsome]
        rfl
    · rw [replace_of_ne held _ hk]
      rw [replace_of_ne live _ hk] at hon
      refine h.arrived k body ?_ hon
      refine (List.mem_append.1 hmem).resolve_right fun hmem => ?_
      obtain ⟨b, -, heq⟩ := List.mem_map.1 hmem
      exact hk (Prod.mk.inj heq).1.symm
  holds := by
    intro k hsome
    rw [List.map_append]
    by_cases hk : k = key
    · subst hk
      rw [replace_self] at hsome ⊢
      refine ⟨isLive_of_held hsome, ?_⟩
      have hkept := hturn.keeps.eq_of_isSome hsome
      cases hbefore : held k with
      | some b => exact List.mem_append_left _ (h.holds k (by rw [hbefore]; rfl)).2
      | none =>
        rw [hkept, hbefore, Option.none_or, Option.isSome_map] at hsome
        obtain ⟨body, rfl⟩ := Option.isSome_iff_exists.1 hsome
        exact List.mem_append_right _ (by simp)
    · rw [replace_of_ne held _ hk] at hsome
      rw [replace_of_ne live _ hk]
      obtain ⟨hon, hmem⟩ := h.holds k hsome
      exact ⟨hon, List.mem_append_left _ hmem⟩
  released := by
    have hbooks := h.released
    have hmore := hturn.released
    -- With a body before the turn none comes in it; without one the call had none at all.
    cases hbefore : held key with
    | some b =>
      have hnone : arrived = none := by
        rw [← Option.not_isSome_iff_eq_none]
        intro hsome
        simp [harrived hsome] at hbefore
      subst hnone
      obtain ⟨⟨k, body⟩, hmem, rfl⟩ := List.mem_map.1 (h.holds key (by rw [hbefore]; rfl)).2
      have hb := h.arrived k body hmem hlive
      have hchange := countP_replace_of_mem h.once hmem live (next.any (·.isLive))
      have hcount := heldCount_next hturn (by rw [hb]; rfl)
      rw [hb, hcount] at hmore
      simp only [hlive, Bool.and_true] at hchange
      simp only [heldCount, Option.getD_some, Option.isSome_none, Bool.toNat_false] at hmore
      simp only [Option.toList_none, List.map_nil, List.append_nil]
      omega
    | none =>
      have hnot := h.not_mem_of_held hlive hbefore
      rw [hbefore] at hmore
      rw [List.countP_append, countP_replace_of_not_mem hnot]
      cases arrived with
      | none =>
        have hnone : next.bind (·.held?) = none := by
          have hkeeps := hturn.keeps
          rw [hbefore] at hkeeps
          exact hkeeps.elim id id
        have hzero : more = 0 := by simpa [hnone, heldCount] using hmore
        simpa [hzero] using hbooks
      | some body =>
        have hcount := heldCount_next hturn (by rw [hbefore]; rfl)
        have htoNat : ∀ x : Bool, (if x = true then 1 else 0) = x.toNat := by decide
        rw [hcount] at hmore
        simp only [heldCount, Option.getD_none, Option.isSome_some, Bool.toNat_false,
          Bool.toNat_true] at hmore
        rw [Option.toList_some, List.map_cons, List.map_nil, List.countP_singleton, htoNat,
          List.length_append, List.length_singleton, Arrival.isHeld, replace_self]
        dsimp only at hmore ⊢
        omega

/-- A call that is over takes a turn in which nothing happens. -/
theorem settle_over (h : Balanced l released live held arrivals) {key : CallKey}
    (hlive : live key = false) {next : Option Activity} (hnext : next.any (·.isLive) = false) :
    Balanced (l.clear key) released (replace live key (next.any (·.isLive)))
      (replace held key (next.bind (·.held?))) arrivals := by
  have hheld : next.bind (·.held?) = none := by
    rw [← Option.not_isSome_iff_eq_none]
    intro hsome
    simp [isLive_of_held hsome] at hnext
  have hlive' : replace live key (next.any (·.isLive)) = live := by
    ext k : 1
    by_cases hk : k = key <;> simp [replace, hk, hlive, hnext]
  have hheld' : replace held key (next.bind (·.held?)) = held := by
    ext k : 1
    by_cases hk : k = key <;> simp [replace, hk, hheld, h.held_of_not_live hlive]
  rw [hlive', hheld']
  refine h.of_records ?_ (h.truthful.clear key)
  rw [Ledger.clear, Ledger.modify, List.map_map]
  apply List.map_congr_left
  intro r hr
  by_cases hkey : r.ticket.key = key
  · have hcleared := h.cleared r hr
    rw [hkey, hlive] at hcleared
    simp [Function.comp, hkey, Record.clear, hcleared]
  · simp [Function.comp, hkey]

end Balanced

end DaemonRpc

import DaemonRpc.Body.Progress

/-!
# What a view holds of its body

A view has its body until its reading ends, and the end is recorded: for the views here having a
body and having ended exclude each other (`ByteView.Sound`, `RecordView.Sound`). A poll never gives
a view another body; it keeps the one that is there or lets go of it (`Keeps`), and a view that
waits still has it.
-/

namespace DaemonRpc

/-- After an answer that ends a stream nothing comes. -/
def Poll.isEnd {α : Type} : Poll α → Bool
  | .failed _ | .finished => true
  | .pending | .item _ => false

/-- There is nothing more. -/
def Poll.isFinished {α : Type} : Poll α → Bool
  | .finished => true
  | .pending | .item _ | .failed _ => false

theorem Poll.isFinished_iff {α : Type} {p : Poll α} : p.isFinished = true ↔ p = .finished := by
  cases p <;> simp [isFinished]

/-- What is held is kept or let go of. -/
def Keeps {α : Type} (before after : Option α) : Prop := after = none ∨ after = before

theorem Keeps.refl {α : Type} (a : Option α) : Keeps a a := .inr rfl

theorem Keeps.trans {α : Type} {a b c : Option α} (hab : Keeps a b) (hbc : Keeps b c) :
    Keeps a c := by
  rcases hbc with rfl | rfl
  · exact .inl rfl
  · exact hab

/-- What is still there was kept. -/
theorem Keeps.eq_of_isSome {α : Type} {a b : Option α} (h : Keeps a b) (hb : b.isSome = true) :
    b = a := by
  apply h.resolve_left
  rintro rfl
  simp at hb

namespace ByteView

/-- Whether the body that the view has is tracked. -/
def held? (v : ByteView) : Option Bool := v.source.map (·.tracked)

/-- The view has its body unless its reading has ended. -/
def Sound (v : ByteView) : Prop := v.source.isSome = v.termination.isNone

/-- A view that is closed has let go of its body, and why is recorded. -/
theorem closeWith_cases (v : ByteView) (how : Termination) :
    (v.closeWith how).source = none ∧ (v.closeWith how).termination.isSome = true := by
  refine ⟨rfl, ?_⟩
  cases h : v.termination <;> simp [closeWith, h]

/-- A view that is closed with a report fails and has let go of its body. -/
theorem closeWithReport_cases (v : ByteView) (report : String) :
    (v.closeWithReport report).1.isEnd = true ∧ (v.closeWithReport report).2.source = none ∧
      (v.closeWithReport report).2.termination.isSome = true := by
  simp only [closeWithReport, Poll.isEnd]
  exact ⟨trivial, v.closeWith_cases _⟩

/-- A poll of a view without its body, one that goes on, and one that ends. -/
theorem poll_cases (v : ByteView) (fired : Option AbortReason) :
    (v.source = none ∧ v.poll fired = (.finished, v)) ∨
      (v.source.isSome = true ∧ (v.poll fired).1.isEnd = false ∧
        (v.poll fired).2.held? = v.held? ∧ (v.poll fired).2.termination = v.termination) ∨
      (v.source.isSome = true ∧ (v.poll fired).1.isEnd = true ∧
        (v.poll fired).2.source = none ∧ (v.poll fired).2.termination.isSome = true) := by
  cases hsource : v.source with
  | none => exact .inl ⟨rfl, by simp [poll, hsource]⟩
  | some source =>
    right
    -- A signal that has fired is looked at before the body is.
    cases fired with
    | some reason =>
      right
      simp only [poll, hsource]
      exact ⟨rfl, rfl, v.closeWith_cases _⟩
    | none =>
      cases hreading : Reading.ofSteps source.steps with
      | pending rest | chunk octets rest =>
        left
        simp only [poll, hsource, hreading]
        exact ⟨rfl, rfl, by simp [held?, hsource], trivial⟩
      | report text =>
        right
        simp only [poll, hsource, hreading]
        exact ⟨rfl, v.closeWithReport_cases text⟩
      | failure e =>
        right
        simp only [poll, hsource, hreading]
        exact ⟨rfl, rfl, v.closeWith_cases _⟩
      | finished =>
        right
        cases hreport : v.headReport with
        | some text =>
          simp only [poll, hsource, hreading, hreport]
          exact ⟨rfl, closeWithReport_cases _ text⟩
        | none =>
          simp only [poll, hsource, hreading, hreport]
          exact ⟨rfl, rfl, v.closeWith_cases _⟩

theorem poll_keeps (v : ByteView) (fired : Option AbortReason) :
    Keeps v.held? (v.poll fired).2.held? := by
  rcases v.poll_cases fired with ⟨-, hpoll⟩ | ⟨-, -, hheld, -⟩ | ⟨-, -, hclosed, -⟩
  · rw [hpoll]
    exact .refl _
  · exact .inr hheld
  · exact .inl (by rw [held?, hclosed]; rfl)

/-- A poll that does not end the reading leaves the view with its body. -/
theorem isSome_of_not_isEnd {v : ByteView} {fired : Option AbortReason}
    (h : (v.poll fired).1.isEnd = false) : (v.poll fired).2.held?.isSome = true := by
  rcases v.poll_cases fired with ⟨-, hpoll⟩ | ⟨hsome, -, hheld, -⟩ | ⟨-, hend, -, -⟩
  · rw [hpoll] at h
    simp [Poll.isEnd] at h
  · rw [hheld, held?, Option.isSome_map, hsome]
  · simp [h] at hend

/-- A poll that ends the reading leaves the view without its body. -/
theorem source_of_isEnd {v : ByteView} {fired : Option AbortReason}
    (h : (v.poll fired).1.isEnd = true) : (v.poll fired).2.source = none := by
  rcases v.poll_cases fired with ⟨hnone, hpoll⟩ | ⟨-, hgoes, -, -⟩ | ⟨-, -, hclosed, -⟩
  · rw [hpoll, hnone]
  · simp [h] at hgoes
  · exact hclosed

/-- A poll keeps a view sound. -/
theorem Sound.poll {v : ByteView} (h : v.Sound) (fired : Option AbortReason) :
    (v.poll fired).2.Sound := by
  rcases v.poll_cases fired with ⟨-, hpoll⟩ | ⟨hsome, -, hheld, hsame⟩ | ⟨-, -, hclosed, hrecorded⟩
  · rwa [hpoll]
  · have hopen := congrArg Option.isSome hheld
    simp only [held?, Option.isSome_map] at hopen
    rw [Sound, hopen, hsame]
    exact h
  · rw [Sound, hclosed, Option.isSome_none, ← Option.not_isSome, hrecorded]
    rfl

/-- A signal that has fired ends the reading. -/
theorem isEnd_of_fired (v : ByteView) (reason : AbortReason) :
    (v.poll (some reason)).1.isEnd = true := by
  cases h : v.source <;> simp [ByteView.poll, h, Poll.isEnd]

/-- Reading a body as a whole waits only while the view has its body and no signal has fired. -/
theorem collect_pending {v w : ByteView} {fired : Option AbortReason}
    {before after : List UInt8} (h : v.collect fired before = (.pending, w, after)) :
    w.held? = v.held? ∧ w.held?.isSome = true ∧ fired = none ∧ (v.Sound → w.Sound) := by
  fun_induction ByteView.collect v fired before with
  | case1 v before u hpoll =>
    simp only [Prod.mk.injEq, true_and] at h
    obtain ⟨rfl, -⟩ := h
    have hgoes : (v.poll fired).1.isEnd = false := by
      rw [hpoll]
      rfl
    have hsome := isSome_of_not_isEnd hgoes
    have hkept := (v.poll_keeps fired).eq_of_isSome hsome
    have hsound := fun hv : v.Sound => hv.poll fired
    rw [hpoll] at hsome hkept hsound
    refine ⟨hkept, hsome, ?_, hsound⟩
    cases fired with
    | none => rfl
    | some reason => simp [v.isEnd_of_fired reason] at hgoes
  | case2 v before octets u hpoll _ ih =>
    obtain ⟨hheld, hsome, hquiet, hsound⟩ := ih h
    have hkeeps := v.poll_keeps fired
    have hstep := fun hv : v.Sound => hv.poll fired
    rw [hpoll] at hkeeps hstep
    -- The body that is there at the end was there all the time.
    have hsame := hkeeps.eq_of_isSome (by rw [← hheld, hsome])
    exact ⟨hheld.trans hsame, hsome, hquiet, fun hv => hsound (hstep hv)⟩
  | case3 | case4 => simp at h

end ByteView

namespace RecordView

/-- Whether the body that the view has is tracked. -/
def held? (v : RecordView) : Option Bool := v.bytes.held?

/-- The view has its body unless its reading has ended; a view that only delivers what it has read
has let go of it. -/
structure Sound (v : RecordView) : Prop where
  ended : v.bytes.source.isSome = v.termination.isNone
  closed : v.reading = false ∨ v.deferred.isSome = true → v.bytes.source = none

/-- A view that begins to read is sound. -/
theorem sound_ofBytes {bytes : ByteView} (h : bytes.Sound) (transform : Option RecordTransform) :
    (ofBytes bytes transform).Sound :=
  ⟨h, by simp [ofBytes]⟩

/-- The octets may go on. -/
theorem Sound.withBytes {v : RecordView} (h : v.Sound) {fired : Option AbortReason}
    (hgoes : (v.bytes.poll fired).1.isEnd = false) (framer : Framer) (ready : List String) :
    { v with bytes := (v.bytes.poll fired).2, framer, ready }.Sound := by
  have hsome := ByteView.isSome_of_not_isEnd hgoes
  have hopen := (v.bytes.poll_keeps fired).eq_of_isSome hsome
  rcases v.bytes.poll_cases fired with ⟨-, hpoll⟩ | ⟨-, -, hheld, hsame⟩ | ⟨-, hend, -, -⟩
  · rw [hpoll] at hgoes
    simp [Poll.isEnd] at hgoes
  · have hsource := congrArg Option.isSome hheld
    simp only [ByteView.held?, Option.isSome_map] at hsource
    refine ⟨?_, fun hclosed => ?_⟩
    · simp only [termination, hsource, hsame]
      exact h.ended
    · have hnone := h.closed hclosed
      simp [ByteView.held?, hsource, hnone] at hsome
  · simp [hgoes] at hend

/-- When the octets have ended, that is recorded. -/
theorem Sound.isSome_termination {v : RecordView} (h : v.Sound) (fired : Option AbortReason)
    (hend : (v.bytes.poll fired).1.isEnd = true) :
    (v.refusal.map Termination.failed <|> (v.bytes.poll fired).2.termination).isSome = true := by
  rcases v.bytes.poll_cases fired with ⟨hnone, hpoll⟩ | ⟨-, hgoes, -, -⟩ | ⟨-, -, -, hrecorded⟩
  · have hended := h.ended
    rw [hnone] at hended
    rw [hpoll]
    show v.termination.isSome = true
    rw [← Option.not_isNone, ← hended]
    rfl
  · simp [hend] at hgoes
  · cases v.refusal <;> simp [hrecorded]

/-- A view without its body is sound if the end of the reading is recorded. -/
theorem sound_of_closed {v : RecordView} (hclosed : v.bytes.source = none)
    (hrecorded : v.termination.isSome = true) : v.Sound := by
  refine ⟨?_, fun _ => hclosed⟩
  rw [hclosed, ← Option.not_isSome, hrecorded]
  rfl

/-- A poll keeps a view sound; it keeps the body or lets go of it, still has it if it waits, and has
let go of it after an error or the end. -/
theorem Sound.poll {v : RecordView} (h : v.Sound) (fired : Option AbortReason) :
    (v.poll fired).2.Sound ∧ Keeps v.held? (v.poll fired).2.held? ∧
      ((v.poll fired).1 = .pending → (v.poll fired).2.held?.isSome = true ∧ fired = none) ∧
      ((v.poll fired).1.isEnd = true → (v.poll fired).2.held? = none) := by
  -- By the exits of the loop: a line is delivered or refused, a deferred error, a wait,
  -- a chunk, the three ways to end, and a view that has ended.
  fun_induction RecordView.poll v fired with
  | case1 v line rest hready =>
    rw [deliver]
    cases v.record line with
    | ok value => exact ⟨⟨h.ended, h.closed⟩, .refl _, by simp, by simp [Poll.isEnd]⟩
    | error e => exact ⟨⟨rfl, fun _ => rfl⟩, .inl rfl, by simp, fun _ => rfl⟩
  | case2 v e hdeferred hready =>
    have hclosed := h.closed (.inr (by rw [hdeferred]; rfl))
    refine ⟨⟨?_, fun _ => rfl⟩, .inl rfl, by simp, fun _ => rfl⟩
    have hended := h.ended
    rw [hclosed] at hended
    exact hended
  | case3 v hnone hready hreading w hpoll =>
    have hgoes : (v.bytes.poll fired).1.isEnd = false := by
      rw [hpoll]
      rfl
    have hsound := h.withBytes hgoes v.framer v.ready
    have hsome := ByteView.isSome_of_not_isEnd hgoes
    have hkeeps := v.bytes.poll_keeps fired
    rw [hpoll] at hsound hsome hkeeps
    refine ⟨hsound, hkeeps, fun _ => ⟨hsome, ?_⟩, by simp [Poll.isEnd]⟩
    cases fired with
    | none => rfl
    | some reason => simp [v.bytes.isEnd_of_fired reason] at hgoes
  | case4 v hnone hready hreading chunk w hpoll _ ih =>
    have hgoes : (v.bytes.poll fired).1.isEnd = false := by
      rw [hpoll]
      rfl
    have hsound := h.withBytes hgoes (v.framer.push chunk).1 (v.framer.push chunk).2
    have hkeeps := v.bytes.poll_keeps fired
    rw [hpoll] at hsound hkeeps
    obtain ⟨hafter, hkept, hwaits, hends⟩ := ih hsound
    exact ⟨hafter, hkeeps.trans hkept, hwaits, hends⟩
  | case5 v hnone hready hreading e w hpoll htrailer ih =>
    have hrecorded := h.isSome_termination fired (by rw [hpoll]; rfl)
    rw [hpoll] at hrecorded
    obtain ⟨hafter, hkept, hwaits, hends⟩ := ih (sound_of_closed rfl hrecorded)
    exact ⟨hafter, .trans (.inl rfl) hkept, hwaits, hends⟩
  | case6 v hnone hready hreading e w hpoll htrailer =>
    have hrecorded := h.isSome_termination fired (by rw [hpoll]; rfl)
    rw [hpoll] at hrecorded
    exact ⟨sound_of_closed rfl hrecorded, .inl rfl, by simp, fun _ => rfl⟩
  | case7 v hnone hready hreading w hpoll ih =>
    have hrecorded := h.isSome_termination fired (by rw [hpoll]; rfl)
    rw [hpoll] at hrecorded
    obtain ⟨hafter, hkept, hwaits, hends⟩ := ih (sound_of_closed rfl hrecorded)
    exact ⟨hafter, .trans (.inl rfl) hkept, hwaits, hends⟩
  | case8 v hnone hready hreading =>
    have hclosed := h.closed (.inl (by simpa using hreading))
    refine ⟨h, .refl _, by simp, fun _ => ?_⟩
    rw [held?, ByteView.held?, hclosed]
    rfl

/-- Reading all records of a body waits only while the view has its body and no signal has
fired. -/
theorem Sound.collect_pending {v w : RecordView} (hv : v.Sound) {fired : Option AbortReason}
    {before after : List Json.Value} (h : v.collect fired before = (.pending, w, after)) :
    w.Sound ∧ w.held? = v.held? ∧ w.held?.isSome = true ∧ fired = none := by
  fun_induction RecordView.collect v fired before with
  | case1 v before u hpoll =>
    simp only [Prod.mk.injEq, true_and] at h
    obtain ⟨rfl, -⟩ := h
    obtain ⟨hafter, hkeeps, hwaits, -⟩ := hv.poll fired
    rw [hpoll] at hafter hkeeps hwaits
    obtain ⟨hsome, hquiet⟩ := hwaits rfl
    exact ⟨hafter, hkeeps.eq_of_isSome hsome, hsome, hquiet⟩
  | case2 v before record u hpoll _ ih =>
    obtain ⟨hafter, hkeeps, -, -⟩ := hv.poll fired
    rw [hpoll] at hafter hkeeps
    obtain ⟨hsound, hheld, hsome, hquiet⟩ := ih hafter h
    have hsame := hkeeps.eq_of_isSome (by rw [← hheld, hsome])
    exact ⟨hsound, hheld.trans hsame, hsome, hquiet⟩
  | case3 | case4 => simp at h

/-- A view that has nothing to deliver and finds its signal fired lets go of its body. -/
theorem Sound.poll_of_fired {v : RecordView} (hv : v.Sound) (hready : v.ready = [])
    (reason : AbortReason) : (v.poll (some reason)).2.held? = none := by
  cases hsource : v.bytes.source with
  | none =>
    obtain ⟨-, hkeeps, -, -⟩ := hv.poll (some reason)
    have hnone : v.held? = none := by rw [held?, ByteView.held?, hsource]; rfl
    rw [hnone] at hkeeps
    exact hkeeps.elim id id
  | some source =>
    -- While the body is there, the view still reads and has deferred no error.
    have hreading : v.reading = true := by
      cases hr : v.reading with
      | true => rfl
      | false => simp [hv.closed (.inl hr)] at hsource
    have hdeferred : v.deferred = none := by
      cases hd : v.deferred with
      | none => rfl
      | some e => simp [hv.closed (.inr (by rw [hd]; rfl))] at hsource
    have hpoll : v.bytes.poll (some reason) =
        (.failed reason.error, v.bytes.closeWith (.cancelled reason)) := by
      simp [ByteView.poll, hsource]
    have htrailer : reason.error.isStreamTrailer = false := by cases reason <;> rfl
    rw [RecordView.poll]
    simp only [hready, hdeferred, hreading, if_true]
    split <;> simp_all [stop, held?, ByteView.held?, ByteView.close]

end RecordView

namespace Stream

/-- Whether the body that the stream has is tracked. -/
def held? (s : Stream) : Option Bool := s.source.held?

/-- The stream has its body unless its reading has ended. -/
def Sound : Stream → Prop
  | bytes view => view.Sound
  | records view | typed _ view => view.Sound

/-- The next poll of the stream looks at its body. -/
def readsNext : Stream → Bool
  | bytes _ => true
  | records view | typed _ view => view.ready.isEmpty

/-- The stream reads its records as ones of a type. -/
def isTyped : Stream → Bool
  | typed _ _ => true
  | bytes _ | records _ => false

/-- A stream that begins to read is sound and has the body. -/
theorem sound_ofBytes {view : ByteView} (h : view.Sound) (kind : StreamKind)
    (transform : Option RecordTransform) :
    (ofBytes kind view transform).Sound ∧ (ofBytes kind view transform).held? = view.held? := by
  cases kind with
  | bytes => exact ⟨h, rfl⟩
  | records | typed => exact ⟨RecordView.sound_ofBytes h transform, rfl⟩

theorem mapPoll_eq_iff {α β : Type} (f : α → β) (p : Poll α) :
    (mapPoll f p = .pending ↔ p = .pending) ∧ (mapPoll f p = .finished ↔ p = .finished) := by
  cases p <;> simp [mapPoll]

theorem isEnd_mapPoll {α β : Type} (f : α → β) (p : Poll α) : (mapPoll f p).isEnd = p.isEnd := by
  cases p <;> rfl

/-- Reading a record as one of a type changes no answers without a record. -/
theorem readTyped_eq_iff (type : RecordType) (p : Poll Json.Value) :
    (readTyped type p = .pending ↔ p = .pending) ∧
      (readTyped type p = .finished ↔ p = .finished) := by
  cases p with
  | item value =>
    cases h : type.read value <;> simp [readTyped, h]
  | pending | failed e | finished => simp [readTyped, mapPoll]

/-- A poll keeps a stream sound; it keeps the body or lets go of it, waits only if no signal has
fired, and has let go of it at the end. -/
theorem Sound.poll {s : Stream} (h : s.Sound) (fired : Option AbortReason) :
    (s.poll fired).2.Sound ∧ Keeps s.held? (s.poll fired).2.held? ∧
      ((s.poll fired).1 = .pending → fired = none) ∧
      ((s.poll fired).1 = .finished → (s.poll fired).2.held? = none) := by
  cases s with
  | bytes view =>
    refine ⟨ByteView.Sound.poll h fired, view.poll_keeps fired, fun hpending => ?_, fun hend => ?_⟩
    · replace hpending : (view.poll fired).1 = .pending := (mapPoll_eq_iff _ _).1.1 hpending
      cases fired with
      | none => rfl
      | some reason =>
        have hends := view.isEnd_of_fired reason
        rw [hpending] at hends
        simp [Poll.isEnd] at hends
    · replace hend : (view.poll fired).1 = .finished := (mapPoll_eq_iff _ _).2.1 hend
      have hends : (view.poll fired).1.isEnd = true := by
        rw [hend]
        rfl
      show (view.poll fired).2.held? = none
      rw [ByteView.held?, ByteView.source_of_isEnd hends]
      rfl
  | records view =>
    obtain ⟨hsound, hkeeps, hwaits, hends⟩ := RecordView.Sound.poll h fired
    refine ⟨hsound, hkeeps, fun hpending => ?_, fun hend => hends ?_⟩
    · exact (hwaits ((mapPoll_eq_iff _ _).1.1 hpending)).2
    · rw [(mapPoll_eq_iff _ _).2.1 hend]
      rfl
  | typed type view =>
    obtain ⟨hsound, hkeeps, hwaits, hends⟩ := RecordView.Sound.poll h fired
    refine ⟨hsound, hkeeps, fun hpending => ?_, fun hend => hends ?_⟩
    · exact (hwaits ((readTyped_eq_iff type _).1.1 hpending)).2
    · rw [(readTyped_eq_iff type _).2.1 hend]
      rfl

/-- A stream that looks at its body and finds its signal fired lets go of it. -/
theorem Sound.poll_of_fired {s : Stream} (h : s.Sound) (hreads : s.readsNext = true)
    (reason : AbortReason) : (s.poll (some reason)).2.held? = none := by
  cases s with
  | bytes view =>
    show (view.poll (some reason)).2.held? = none
    rw [ByteView.held?, ByteView.source_of_isEnd (view.isEnd_of_fired reason)]
    rfl
  | records view | typed type view =>
    exact RecordView.Sound.poll_of_fired h (List.isEmpty_iff.1 hreads) reason

/-- An error or the end is the last that a stream answers of its body; but a stream of records of a
type goes on after a record that does not fit. -/
theorem Sound.held?_of_isEnd {s : Stream} (h : s.Sound) (hrecords : s.isTyped = false)
    {fired : Option AbortReason} (hend : (s.poll fired).1.isEnd = true) :
    (s.poll fired).2.held? = none := by
  cases s with
  | bytes view =>
    have hends : (view.poll fired).1.isEnd = true := (isEnd_mapPoll _ _).symm.trans hend
    show (view.poll fired).2.held? = none
    rw [ByteView.held?, ByteView.source_of_isEnd hends]
    rfl
  | records view =>
    exact (RecordView.Sound.poll h fired).2.2.2 ((isEnd_mapPoll _ _).symm.trans hend)
  | typed type view => simp [isTyped] at hrecords

/-- Draining keeps a stream sound and its body or lets go of it, and has let go of it if the signal
has fired or the end was answered. -/
theorem Sound.drain {s : Stream} (h : s.Sound) (fired : Option AbortReason) :
    (s.drain fired).2.Sound ∧ Keeps s.held? (s.drain fired).2.held? ∧
      (fired.isSome = true → (s.drain fired).2.held? = none) ∧
      ((s.drain fired).1.getLast?.any (·.isFinished) = true →
        (s.drain fired).2.held? = none) := by
  have hpoll := h.poll fired
  -- Along the answers: a drain ends at the first wait or at the end.
  fun_induction Stream.drain s fired with
  | case1 s t heq =>
    rw [heq] at hpoll
    obtain ⟨hsound, hkeeps, hwaits, -⟩ := hpoll
    exact ⟨hsound, hkeeps, by simp [hwaits rfl], by simp [Poll.isFinished]⟩
  | case2 s t heq =>
    rw [heq] at hpoll
    obtain ⟨hsound, hkeeps, -, hends⟩ := hpoll
    exact ⟨hsound, hkeeps, fun _ => hends rfl, fun _ => hends rfl⟩
  | case3 s item t heq _ answers last hdrain ih | case4 s e t heq _ answers last hdrain ih =>
    rw [heq] at hpoll
    obtain ⟨hsound, hkeeps, -, -⟩ := hpoll
    obtain ⟨hlast, hkept, hclosed, hends⟩ := ih hsound (hsound.poll fired)
    rw [hdrain] at hlast hkept hclosed hends
    refine ⟨hlast, hkeeps.trans hkept, hclosed, fun hfinished => hends ?_⟩
    rw [List.getLast?_cons] at hfinished
    cases hanswers : answers.getLast? with
    | none => simp [hanswers, Poll.isFinished] at hfinished
    | some p => simpa [hanswers] using hfinished

end Stream

end DaemonRpc

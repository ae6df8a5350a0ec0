import DaemonRpc.Proofs.Signal.Notes
import DaemonRpc.Proofs.Signal.Reports

/-!
# Tales of signals

What notes say of one signal is its `Tale`: listeners are attached and removed until the signal
fires; then those that are left (`standing`) are called, each once and in their order, and whoever
comes later is called at once.

`Stage` says how far the tale has come, in view of what is attached to the signal and of the errands
that remain for it. Every errand of a cascade leads from stage to stage (`Store.Told.errand`), and
so does every operation on the store.
-/

namespace DaemonRpc.Signal

variable {κ : Type}

/-! ## What notes say of a signal -/

namespace Note

/-- The number that a listener got. -/
def number? : Note κ → Option Nat
  | .attached _ number _ _ => some number
  | _ => none

/-- It does not happen to a signal that has fired. -/
def isEarly : Note κ → Bool
  | .attached _ _ _ _ | .removed _ _ => true
  | _ => false

/-- A listener is called that was attached. -/
def isCall : Note κ → Bool
  | .called _ _ _ _ => true
  | _ => false

/-- The listeners that are attached after this, with their numbers and labels. -/
def stand (listeners : List (Nat × String)) : Note κ → List (Nat × String)
  | .attached _ number label _ => listeners ++ [(number, label)]
  | .removed _ number => listeners.filter fun listener => listener.1 ≠ number
  | _ => listeners

/-- A listener is called that was attached under this number and label. -/
def call (name : Name κ) (reason : AbortReason) (listener : Nat × String) : Note κ :=
  .called name listener.1 listener.2 reason

end Note

/-- The listeners that notes of a signal leave attached, in the order of their subscription. -/
def standing (notes : List (Note κ)) : List (Nat × String) := notes.foldl Note.stand []

/-- The notes of a signal, given the reason with which it has fired. -/
inductive Tale (name : Name κ) : Option AbortReason → List (Note κ) → Prop
  /-- Listeners were attached and removed. -/
  | waiting {notes : List (Note κ)} (hearly : ∀ note ∈ notes, note.isEarly = true) :
      Tale name none notes
  /-- Then the signal fired. The listeners that were left were called, and others came late. -/
  | fired {reason : AbortReason} {early during after : List (Note κ)}
      (hearly : ∀ note ∈ early, note.isEarly = true)
      (hcalls : during.filter Note.isCall = (standing early).map (Note.call name reason))
      (hothers : ∀ note ∈ during, note.isCall = true ∨
        ∃ label byListener, note = .late name label reason byListener)
      (hafter : ∀ note ∈ after, ∃ label byListener, note = .late name label reason byListener) :
      Tale name (some reason) (early ++ .fired name reason :: during ++ .closed name :: after)

/-! ## Tags -/

/-- The number and the label of a listener, if it is a call. -/
def Listener.tag? : Listener κ → Option (Nat × String)
  | .call number label _ => some (number, label)
  | .relay _ => none

namespace Store

variable [DecidableEq κ] {s : Store κ}

/-- The numbers and labels of the calls that are attached to a signal. -/
def tags (s : Store κ) (name : Name κ) : List (Nat × String) :=
  (s.listeners name).filterMap Listener.tag?

theorem calls_eq (s : Store κ) (name : Name κ) : s.calls name = (s.tags name).map Prod.fst := by
  rw [calls, tags, List.map_filterMap]
  congr 1
  funext listener
  cases listener <;> rfl

theorem tags_markFired (s : Store κ) (name : Name κ) (reason : AbortReason) (other : Name κ) :
    (s.markFired name reason).tags other = if other = name then [] else s.tags other := by
  rw [tags, listeners_markFired]
  split <;> rfl

theorem tags_attach (s : Store κ) (name : Name κ) (label : String) (effects : List (Effect κ))
    (other : Name κ) :
    (s.attach name label effects).tags other = s.tags other ++
      if other = name ∧ s.has other then [(s.issued other, label)] else [] := by
  rw [tags, listeners_attach, List.filterMap_append, tags]
  split <;> rfl

theorem tags_unsubscribe (s : Store κ) (name : Name κ) (id : Nat) (other : Name κ) :
    (s.unsubscribe name id).1.tags other =
      if other = name then (s.tags other).filter fun tag => tag.1 ≠ id else s.tags other := by
  rw [tags, listeners_unsubscribe, tags]
  split
  · rw [List.filter_filterMap, List.filterMap_filter]
    congr 1
    funext listener
    cases listener with
    | relay key => rfl
    | call number label effects =>
      by_cases h : number = id <;> simp [isCall, Listener.tag?, Option.filter, h]
  · rfl

@[simp]
theorem tags_detach (s : Store κ) (key : κ) (name : Name κ) :
    (s.detach key).tags name = s.tags name := by
  rw [tags, listeners_detach, List.filterMap_filter, tags]
  congr 1
  funext listener
  cases listener with
  | relay other => by_cases h : other = key <;> simp [Listener.tag?, h]
  | call number label effects => rfl

@[simp]
theorem tags_clear (s : Store κ) (key : κ) (name : Name κ) :
    (s.clear key).tags name = s.tags name :=
  s.tags_detach key name

theorem tags_addController (s : Store κ) (n : Nat) (name : Name κ) :
    (s.addController n).tags name = s.tags name := by
  rw [tags, listeners_addController, tags]

/-- Merging signals attaches relays, and no calls. -/
theorem tags_compose (s : Store κ) (key : κ) (sources : List (Name κ)) (timeout : Option Duration)
    (name : Name κ) : (s.compose key sources timeout).tags name = s.tags name := by
  have hrelays : ∀ n, (List.replicate n (Listener.relay key)).filterMap Listener.tag? = [] := by
    intro n
    exact List.filterMap_eq_nil_iff.2 fun l hl => by rw [List.eq_of_mem_replicate hl]; rfl
  rw [tags, listeners_compose, List.filterMap_append, hrelays, List.append_nil, tags]

end Store

/-! ## Stages -/

/-- How far the tale of a signal has come: the reason with which it has fired, the tags of what is
attached to it, the errands that remain for it, and its notes so far. -/
inductive Stage (name : Name κ) (reason? : Option AbortReason) (tags : List (Nat × String))
    (errands : List (Errand κ)) (notes : List (Note κ)) : Prop
  /-- The listeners are those that the notes leave. -/
  | waiting (hreason : reason? = none) (htags : tags = standing notes) (herrands : errands = [])
      (hearly : ∀ note ∈ notes, note.isEarly = true)
  /-- Some listeners that were left have been called, and the others will be. -/
  | firing {reason : AbortReason} {early during : List (Note κ)} {left : List (Listener κ)}
      (hreason : reason? = some reason) (htags : tags = [])
      (herrands : errands = left.map (fun listener => .call name listener reason) ++ [.close name])
      (hnotes : notes = early ++ .fired name reason :: during)
      (hearly : ∀ note ∈ early, note.isEarly = true)
      (hcalls : during.filter Note.isCall ++
          (left.filterMap Listener.tag?).map (Note.call name reason) =
        (standing early).map (Note.call name reason))
      (hothers : ∀ note ∈ during, note.isCall = true ∨
        ∃ label byListener, note = .late name label reason byListener)
  /-- All has been told. -/
  | closed {reason : AbortReason} (hreason : reason? = some reason) (htags : tags = [])
      (herrands : errands = []) (htale : Tale name (some reason) notes)

namespace Stage

variable {name : Name κ} {reason? : Option AbortReason} {tags : List (Nat × String)}
  {errands : List (Errand κ)} {notes : List (Note κ)}

/-- A relay is called for the signal. -/
theorem skip {key : κ} {r : AbortReason}
    (h : Stage name reason? tags (.call name (.relay key) r :: errands) notes) :
    Stage name reason? tags errands notes := by
  cases h with
  | waiting _ _ herrands => cases herrands
  | closed _ _ herrands => cases herrands
  | @firing _ _ _ left hreason htags herrands hnotes hearly hcalls hothers =>
    cases left with
    | nil => cases herrands
    | cons listener left =>
      obtain ⟨⟨rfl, rfl⟩, rfl⟩ := by simpa using herrands
      exact .firing hreason htags rfl hnotes hearly hcalls hothers

/-- A listener is called that was attached to the signal. -/
theorem called {number : Nat} {label : String} {effects : List (Effect κ)} {r : AbortReason}
    (h : Stage name reason? tags (.call name (.call number label effects) r :: errands) notes) :
    Stage name reason? tags errands (notes ++ [.called name number label r]) := by
  cases h with
  | waiting _ _ herrands => cases herrands
  | closed _ _ herrands => cases herrands
  | @firing reason early during left hreason htags herrands hnotes hearly hcalls hothers =>
    cases left with
    | nil => cases herrands
    | cons listener left =>
      obtain ⟨⟨rfl, rfl⟩, rfl⟩ := by simpa using herrands
      have hnext : notes ++ [.called name number label r] =
          early ++ .fired name r :: (during ++ [.called name number label r]) := by
        rw [hnotes, List.append_assoc]
        rfl
      refine .firing hreason htags rfl hnext hearly ?_ ?_
      · rw [← hcalls, List.filter_append, List.append_assoc]
        rfl
      · exact List.forall_mem_append.2 ⟨hothers, List.forall_mem_singleton.2 (.inl rfl)⟩

/-- All listeners have been called. -/
theorem done (h : Stage name reason? tags (.close name :: errands) notes) :
    Stage name reason? tags errands (notes ++ [.closed name]) := by
  cases h with
  | waiting _ _ herrands => cases herrands
  | closed _ _ herrands => cases herrands
  | @firing reason early during left hreason htags herrands hnotes hearly hcalls hothers =>
    cases left with
    | cons listener left => cases herrands
    | nil =>
      obtain rfl := (List.cons.inj herrands).2
      have htale : Tale name (some reason)
          (early ++ .fired name reason :: during ++ .closed name :: []) :=
        .fired hearly ((List.append_nil _).symm.trans hcalls) hothers (by simp)
      rw [hnotes]
      exact .closed hreason htags rfl htale

/-- The signal fires. -/
theorem fire (h : Stage name none tags errands notes) {listeners : List (Listener κ)}
    (htags : tags = listeners.filterMap Listener.tag?) (reason : AbortReason) :
    Stage name (some reason) []
      (listeners.map (fun listener => .call name listener reason) ++ .close name :: errands)
      (notes ++ [.fired name reason]) := by
  cases h with
  | waiting _ hstanding herrands hearly =>
    subst herrands
    have hcalls : [].filter Note.isCall ++
        (listeners.filterMap Listener.tag?).map (Note.call name reason) =
          (standing notes).map (Note.call name reason) := by
      rw [← htags, hstanding]
      rfl
    exact .firing rfl rfl rfl rfl hearly hcalls (by simp)
  | firing hreason => cases hreason
  | closed hreason => cases hreason

/-- A listener is attached to the signal. -/
theorem attach (h : Stage name none tags errands notes) (number : Nat) (label : String)
    (byListener : Bool) :
    Stage name none (tags ++ [(number, label)]) errands
      (notes ++ [.attached name number label byListener]) := by
  cases h with
  | waiting _ hstanding herrands hearly =>
    refine .waiting rfl ?_ herrands ?_
    · rw [hstanding, standing, standing, List.foldl_append]
      rfl
    · exact List.forall_mem_append.2 ⟨hearly, List.forall_mem_singleton.2 rfl⟩
  | firing hreason => cases hreason
  | closed hreason => cases hreason

/-- A listener is taken away that is attached to the signal. -/
theorem remove (h : Stage name reason? tags errands notes) {number : Nat}
    (hmem : number ∈ tags.map Prod.fst) :
    Stage name reason? (tags.filter fun tag => tag.1 ≠ number) errands
      (notes ++ [.removed name number]) := by
  cases h with
  | waiting hreason hstanding herrands hearly =>
    refine .waiting hreason ?_ herrands ?_
    · rw [hstanding, standing, standing, List.foldl_append]
      rfl
    · exact List.forall_mem_append.2 ⟨hearly, List.forall_mem_singleton.2 rfl⟩
  | firing _ htags => simp [htags] at hmem
  | closed _ htags => simp [htags] at hmem

/-- A listener comes too late. -/
theorem late {reason : AbortReason} (h : Stage name (some reason) tags errands notes)
    (label : String) (byListener : Bool) :
    Stage name (some reason) tags errands (notes ++ [.late name label reason byListener]) := by
  cases h with
  | waiting hreason => cases hreason
  | @firing r early during left hreason htags herrands hnotes hearly hcalls hothers =>
    obtain rfl := Option.some.inj hreason
    have hnext : notes ++ [.late name label reason byListener] =
        early ++ .fired name reason :: (during ++ [.late name label reason byListener]) := by
      rw [hnotes, List.append_assoc]
      rfl
    refine .firing rfl htags herrands hnext hearly ?_ ?_
    · rw [← hcalls, List.filter_append]
      simp [Note.isCall]
    · exact List.forall_mem_append.2
        ⟨hothers, List.forall_mem_singleton.2 (.inr ⟨label, byListener, rfl⟩)⟩
  | closed hreason htags herrands htale =>
    obtain rfl := Option.some.inj hreason
    cases htale with
    | @fired _ early during after hearly hcalls hothers hafter =>
      have hlater : ∀ note ∈ after ++ [.late name label reason byListener],
          ∃ label byListener, note = .late name label reason byListener :=
        List.forall_mem_append.2 ⟨hafter, List.forall_mem_singleton.2 ⟨label, byListener, rfl⟩⟩
      refine .closed rfl htags herrands ?_
      rw [List.append_assoc]
      exact .fired hearly hcalls hothers hlater

/-- Calls are attached to a signal that has not fired, and these are the ones that are left. -/
theorem tags_eq (h : Stage name reason? tags errands notes) :
    tags = if reason?.isNone then standing notes else [] := by
  cases h with
  | waiting hreason htags => rw [htags, hreason]; rfl
  | firing hreason htags => rw [htags, hreason]; rfl
  | closed hreason htags => rw [htags, hreason]; rfl

/-- When nothing remains to be done for the signal. -/
theorem tale (h : Stage name reason? tags [] notes) : Tale name reason? notes := by
  cases h with
  | waiting hreason _ _ hearly =>
    subst hreason
    exact .waiting hearly
  | firing _ _ herrands => simp at herrands
  | closed hreason _ _ htale =>
    subst hreason
    exact htale

end Stage

/-! ## Cascades -/

section

variable [DecidableEq κ]

/-- The notes of one signal. -/
def notesAbout (name : Name κ) (notes : List (Note κ)) : List (Note κ) :=
  notes.filter (·.isAbout name)

/-- The errands for one signal. -/
def errandsFor (name : Name κ) (errands : List (Errand κ)) : List (Errand κ) :=
  errands.filter (·.isFor name)

variable {name : Name κ} {errands more : List (Errand κ)} {notes new : List (Note κ)}

theorem notesAbout_append (hnew : ∀ note ∈ new, note.isAbout name = false) :
    notesAbout name (notes ++ new) = notesAbout name notes := by
  have hnone : new.filter (·.isAbout name) = [] := by
    refine List.filter_eq_nil_iff.2 fun note hnote => ?_
    rw [hnew note hnote]
    exact Bool.false_ne_true
  rw [notesAbout, List.filter_append, hnone, List.append_nil, notesAbout]

theorem notesAbout_concat {note : Note κ} (h : note.isAbout name = true) :
    notesAbout name (notes ++ [note]) = notesAbout name notes ++ [note] := by
  rw [notesAbout, List.filter_append, List.filter_cons_of_pos h]
  rfl

/-- A note that gives no number. -/
theorem numbers_concat {numbers : List Nat}
    (h : (notesAbout name notes).filterMap Note.number? = numbers) {note : Note κ}
    (hnote : note.number? = none) :
    (notesAbout name (notes ++ [note])).filterMap Note.number? = numbers := by
  cases habout : note.isAbout name with
  | true =>
    rw [notesAbout_concat habout, List.filterMap_append, List.filterMap_cons_none hnote, h]
    exact List.append_nil _
  | false => rwa [notesAbout_append (List.forall_mem_singleton.2 habout)]

theorem errandsFor_append (hmore : ∀ e ∈ more, e.isFor name = false) :
    errandsFor name (more ++ errands) = errandsFor name errands := by
  have hnone : more.filter (·.isFor name) = [] := by
    refine List.filter_eq_nil_iff.2 fun e he => ?_
    rw [hmore e he]
    exact Bool.false_ne_true
  rw [errandsFor, List.filter_append, hnone, List.nil_append, errandsFor]

theorem errandsFor_cons {e : Errand κ} (h : e.isFor name = true) :
    errandsFor name (e :: errands) = e :: errandsFor name errands :=
  List.filter_cons_of_pos h

end

namespace Store

variable [DecidableEq κ] {s t : Store κ} {name : Name κ} {errands : List (Errand κ)}
  {notes : List (Note κ)}

/-- The notes tell of a signal what has become of it, and the errands are those that remain. -/
structure Told (name : Name κ) (errands : List (Errand κ)) (notes : List (Note κ)) (s : Store κ) :
    Prop where
  stage : Stage name (s.reason? name) (s.tags name) (errandsFor name errands)
    (notesAbout name notes)
  /-- The listeners of a signal are numbered in their order. -/
  numbers : (notesAbout name notes).filterMap Note.number? = List.range (s.issued name)

namespace Told

/-- What is done has nothing to do with the signal. -/
theorem elsewhere (h : Told name errands notes s) {more : List (Errand κ)} {new : List (Note κ)}
    (hmore : ∀ e ∈ more, e.isFor name = false) (hnew : ∀ note ∈ new, note.isAbout name = false)
    (hreason : t.reason? name = s.reason? name) (htags : t.tags name = s.tags name)
    (hissued : t.issued name = s.issued name) :
    Told name (more ++ errands) (notes ++ new) t := by
  constructor
  · rw [errandsFor_append hmore, notesAbout_append hnew, hreason, htags]
    exact h.stage
  · rw [notesAbout_append hnew, hissued]
    exact h.numbers

/-- Nothing is done for the signal, and nothing is noted of it. -/
theorem aside (h : Told name errands notes s) {note : Note κ} (hnote : note.isAbout name = false)
    (hreason : t.reason? name = s.reason? name) (htags : t.tags name = s.tags name)
    (hissued : t.issued name = s.issued name) : Told name errands (notes ++ [note]) t :=
  h.elsewhere (fun _ he => absurd he List.not_mem_nil) (List.forall_mem_singleton.2 hnote) hreason
    htags hissued

/-- Nothing is done for the signal, and nothing is noted. -/
theorem quiet (h : Told name errands notes s) (hreason : t.reason? name = s.reason? name)
    (htags : t.tags name = s.tags name) (hissued : t.issued name = s.issued name) :
    Told name errands notes t := by
  constructor
  · rw [hreason, htags]
    exact h.stage
  · rw [hissued]
    exact h.numbers

/-- Errands are added that are not for the signal. -/
theorem pushAll {more : List (Errand κ)} (h : Told name errands notes s)
    (hmore : ∀ e ∈ more, e.isFor name = false) : Told name (more ++ errands) notes s := by
  refine ⟨?_, h.numbers⟩
  rw [errandsFor_append hmore]
  exact h.stage

/-- An errand is added that is not for the signal. -/
theorem push {e : Errand κ} (h : Told name errands notes s) (he : e.isFor name = false) :
    Told name (e :: errands) notes s :=
  h.pushAll (List.forall_mem_singleton.2 he)

/-- An errand that is not for the signal. -/
theorem tail {e : Errand κ} (h : Told name (e :: errands) notes s) (he : e.isFor name = false) :
    Told name errands notes s := by
  refine ⟨?_, h.numbers⟩
  have hstage := h.stage
  rwa [← List.singleton_append, errandsFor_append (List.forall_mem_singleton.2 he)] at hstage

/-- A relay is called, for the signal or for another. -/
theorem skip {other : Name κ} {key : κ} {reason : AbortReason}
    (h : Told name (.call other (.relay key) reason :: errands) notes s) :
    Told name errands notes s := by
  by_cases ho : other = name
  · subst ho
    refine ⟨?_, h.numbers⟩
    have hstage := h.stage
    rw [errandsFor_cons (by simp [Errand.isFor])] at hstage
    exact hstage.skip
  · exact h.tail (by simp [Errand.isFor, ho])

/-- A signal fires. -/
theorem fire (h : Told name errands notes s) {other : Name κ} (hwaits : s.waits other = true)
    (reason : AbortReason) {next : List (Errand κ)} (hnext : ∀ e ∈ next, e.isFor name = false) :
    Told name ((s.listeners other).map (fun listener => .call other listener reason) ++
      .close other :: (next ++ errands)) (notes ++ [.fired other reason])
      (s.markFired other reason) := by
  by_cases ho : other = name
  · subst ho
    -- Only the calls and the end of the firing are for the signal, not what comes of them.
    have herrands : errandsFor other ((s.listeners other).map (fun listener =>
        .call other listener reason) ++ .close other :: (next ++ errands)) =
          (s.listeners other).map (fun listener => .call other listener reason) ++
            .close other :: errandsFor other errands := by
      rw [errandsFor, List.filter_append, List.filter_eq_self.2, ← errandsFor,
        errandsFor_cons (by simp [Errand.isFor]), errandsFor_append hnext]
      exact List.forall_mem_map.2 fun listener _ => by simp [Errand.isFor]
    have hstage := h.stage
    rw [reason?_of_waits hwaits] at hstage
    constructor
    · rw [herrands, notesAbout_concat (by simp [Note.isAbout]),
        reason?_markFired (has_of_waits hwaits), tags_markFired, if_pos rfl, if_pos rfl]
      exact hstage.fire rfl reason
    · rw [issued_markFired]
      exact numbers_concat h.numbers rfl
  · have hcalls : ∀ e ∈ (s.listeners other).map (fun listener =>
        Errand.call other listener reason) ++ .close other :: next, e.isFor name = false := by
      refine List.forall_mem_append.2 ⟨?_, List.forall_mem_cons.2 ⟨?_, hnext⟩⟩
      · exact List.forall_mem_map.2 fun listener _ => by simp [Errand.isFor, ho]
      · simp [Errand.isFor, ho]
    have hfired : ∀ note ∈ [Note.fired other reason], note.isAbout name = false :=
      List.forall_mem_singleton.2 (by simp [Note.isAbout, ho])
    have hmarked := h.elsewhere hcalls hfired (t := s.markFired other reason)
      (by rw [reason?_markFired (has_of_waits hwaits), if_neg (Ne.symm ho)])
      (by rw [tags_markFired, if_neg (Ne.symm ho)]) (issued_markFired ..)
    rwa [List.append_assoc] at hmarked

/-- A listener is called that was attached. -/
theorem called {other : Name κ} {number : Nat} {label : String} {effects : List (Effect κ)}
    {reason : AbortReason}
    (h : Told name (.call other (.call number label effects) reason :: errands) notes s) :
    Told name (effects.map .perform ++ errands) (notes ++ [.called other number label reason])
      s := by
  have heffects : ∀ e ∈ effects.map Errand.perform, e.isFor name = false :=
    List.forall_mem_map.2 fun _ _ => rfl
  by_cases ho : other = name
  · subst ho
    have hstage := h.stage
    rw [errandsFor_cons (by simp [Errand.isFor])] at hstage
    constructor
    · rw [errandsFor_append heffects, notesAbout_concat (by simp [Note.isAbout])]
      exact hstage.called
    · exact numbers_concat h.numbers rfl
  · exact (h.tail (by simp [Errand.isFor, ho])).elsewhere heffects
      (List.forall_mem_singleton.2 (by simp [Note.isAbout, ho])) rfl rfl rfl

/-- All listeners of a signal have been called. -/
theorem done {other : Name κ} (h : Told name (.close other :: errands) notes s) :
    Told name errands (notes ++ [.closed other]) s := by
  by_cases ho : other = name
  · subst ho
    have hstage := h.stage
    rw [errandsFor_cons (by simp [Errand.isFor])] at hstage
    constructor
    · rw [notesAbout_concat (by simp [Note.isAbout])]
      exact hstage.done
    · exact numbers_concat h.numbers rfl
  · exact (h.tail (by simp [Errand.isFor, ho])).aside (by simp [Note.isAbout, ho]) rfl rfl
      rfl

/-- A listener is attached to a signal. -/
theorem attach (h : Told name errands notes s) {other : Name κ} (hwaits : s.waits other = true)
    (label : String) (effects : List (Effect κ)) (byListener : Bool) :
    Told name errands (notes ++ [.attached other (s.issued other) label byListener])
      (s.attach other label effects) := by
  by_cases ho : other = name
  · subst ho
    have hstage := h.stage
    rw [reason?_of_waits hwaits] at hstage
    constructor
    · rw [notesAbout_concat (by simp [Note.isAbout]), reason?_attach, reason?_of_waits hwaits,
        tags_attach, if_pos ⟨rfl, has_of_waits hwaits⟩]
      exact hstage.attach ..
    · rw [notesAbout_concat (by simp [Note.isAbout]), List.filterMap_append, h.numbers,
        issued_attach, if_pos ⟨rfl, has_of_waits hwaits⟩, List.range_succ]
      rfl
  · refine h.aside (by simp [Note.isAbout, ho]) (reason?_attach ..) ?_ ?_
    · rw [tags_attach, if_neg (fun hand => ho hand.1.symm), List.append_nil]
    · rw [issued_attach, if_neg (fun hand => ho hand.1.symm), Nat.add_zero]

/-- Nothing is attached to a signal that is not there. -/
theorem attach_of_not_has (h : Told name errands notes s) {other : Name κ}
    (hother : s.has other = false) (label : String) (effects : List (Effect κ)) :
    Told name errands notes (s.attach other label effects) := by
  have hnot : ¬ (name = other ∧ s.has name = true) := by
    rintro ⟨rfl, hhas⟩
    exact Bool.noConfusion (hother.symm.trans hhas)
  refine h.quiet (reason?_attach ..) ?_ ?_
  · rw [tags_attach, if_neg hnot, List.append_nil]
  · rw [issued_attach, if_neg hnot, Nat.add_zero]

/-- A listener comes too late. -/
theorem late (h : Told name errands notes s) {other : Name κ} {reason : AbortReason}
    (hother : s.reason? other = some reason) (label : String) (byListener : Bool) :
    Told name errands (notes ++ [.late other label reason byListener]) s := by
  by_cases ho : other = name
  · subst ho
    have hstage := h.stage
    rw [hother] at hstage
    constructor
    · rw [notesAbout_concat (by simp [Note.isAbout]), hother]
      exact hstage.late label byListener
    · exact numbers_concat h.numbers rfl
  · exact h.aside (by simp [Note.isAbout, ho]) rfl rfl
      rfl

/-- An errand that fires a signal unless it has fired. -/
theorem fires (h : Told name errands notes s) {e : Errand κ} {other : Name κ}
    {reason : AbortReason} (he : e.fires? = some (other, reason)) :
    Told name (s.errands e ++ errands) (notes ++ s.notes e) (s.after e) := by
  rw [errands_of_fires he, notes_of_fires he]
  rcases s.after_of_fires he with ⟨hwaits, hafter⟩ | ⟨hwaits, hafter⟩
  · rw [hwaits, hafter, if_pos rfl, if_pos rfl, List.append_assoc]
    exact h.fire hwaits reason fun _ hnext => Errand.isFor_of_mem_next hnext name
  · rw [hwaits, if_neg Bool.false_ne_true, if_neg Bool.false_ne_true, List.append_nil]
    rcases hafter with hafter | ⟨key, hafter⟩
    · rwa [hafter]
    · rw [hafter]
      exact h.quiet (reason?_detach ..) (tags_detach ..) (issued_detach ..)

/-- Every errand leads from stage to stage. -/
theorem errand {e : Errand κ} (h : Told name (e :: errands) notes s) :
    Told name (s.errands e ++ errands) (notes ++ s.notes e) (s.after e) := by
  match e with
  | .fire other reason => exact (h.tail rfl).fires rfl
  -- The call of a relay is one of the calls for its signal, and then fires another.
  | .call other (.relay key) reason => exact h.skip.fires rfl
  | .expire key => exact (h.tail rfl).fires rfl
  | .call other (.call number label effects) reason => exact h.called
  | .close other => exact h.done
  | .detach key =>
    rw [show notes ++ s.notes (.detach key) = notes from List.append_nil notes]
    exact (h.tail rfl).quiet (reason?_detach ..) (tags_detach ..) (issued_detach ..)
  | .perform (.abort n) =>
    rw [show notes ++ s.notes (.perform (.abort n)) = notes from List.append_nil notes]
    exact (h.tail rfl).push rfl
  | .perform (.clear key) =>
    rw [show notes ++ s.notes (.perform (.clear key)) = notes from List.append_nil notes]
    exact (h.tail rfl).quiet (reason?_clear ..) (tags_clear ..) (issued_clear ..)
  | .perform (.count other) => exact (h.tail rfl).aside rfl rfl rfl rfl
  | .perform (.subscribe other label) =>
    have hafter : s.after (.perform (.subscribe other label)) =
        (s.work (.perform (.subscribe other label))).store := rfl
    show Told name errands (notes ++ [s.noteSubscription other label]) _
    rw [hafter, work, noteSubscription]
    cases hreason : s.reason? other with
    | some reason => exact (h.tail rfl).late hreason label true
    | none =>
      cases hhas : s.has other with
      | true => exact (h.tail rfl).attach (by simp [waits, hhas, hreason]) label [] true
      | false => exact ((h.tail rfl).attach_of_not_has hhas label []).aside rfl rfl rfl rfl

/-- A listener is taken away, if it is attached. -/
theorem unsubscribe (h : Told name errands notes s) (other : Name κ) (number : Nat) :
    Told name errands
      (notes ++ if (s.unsubscribe other number).2 then [.removed other number] else [])
      (s.unsubscribe other number).1 := by
  have hfound := s.found_unsubscribe other number
  rw [calls_eq] at hfound
  by_cases hmem : number ∈ (s.tags other).map Prod.fst
  · rw [hfound, decide_eq_true hmem, if_pos rfl]
    by_cases ho : other = name
    · subst ho
      constructor
      · rw [notesAbout_concat (by simp [Note.isAbout]), reason?_unsubscribe, tags_unsubscribe,
          if_pos rfl]
        exact h.stage.remove hmem
      · rw [issued_unsubscribe]
        exact numbers_concat h.numbers rfl
    · refine h.aside (by simp [Note.isAbout, ho]) (reason?_unsubscribe ..) ?_
        (issued_unsubscribe ..)
      rw [tags_unsubscribe, if_neg (Ne.symm ho)]
  · -- Nothing is attached under the number, so nothing is taken away.
    rw [hfound, decide_eq_false hmem, if_neg Bool.false_ne_true, List.append_nil]
    refine h.quiet (reason?_unsubscribe ..) ?_ (issued_unsubscribe ..)
    rw [tags_unsubscribe]
    split
    · next hname =>
      subst hname
      refine List.filter_eq_self.2 fun tag htag => decide_eq_true ?_
      rintro rfl
      exact hmem (List.mem_map_of_mem htag)
    · rfl

/-- Signals are merged under a new key. The merged signal fires at once if one of them has. -/
theorem compose (h : Told name [] notes s) {key : κ} (hnew : s.has (.merged key) = false)
    (sources : List (Name κ)) (timeout : Option Duration) :
    Told name []
      (notes ++ match (s.compose key sources timeout).reason? (.merged key) with
        | some reason => [.fired (.merged key) reason, .closed (.merged key)]
        | none => [])
      (s.compose key sources timeout) := by
  by_cases hname : name = .merged key
  · subst hname
    have hunfired := reason?_of_not_has hnew
    have htags : s.tags (.merged key) = [] := by rw [tags, listeners_of_not_has hnew]; rfl
    cases hreason : (s.compose key sources timeout).reason? (.merged key) with
    | none =>
      rw [List.append_nil]
      exact h.quiet (hreason.trans hunfired.symm) (tags_compose ..) (issued_compose ..)
    | some reason =>
      have hstage := h.stage
      rw [hunfired, htags] at hstage
      -- It has no listeners yet, so all of them are called.
      have hfired := hstage.fire (List.filterMap_nil (f := Listener.tag?)).symm reason
      have hnotes : notes ++ [Note.fired (.merged key) reason, .closed (.merged key)] =
          notes ++ [.fired (.merged key) reason] ++ [.closed (.merged key)] := by simp
      constructor
      · rw [hnotes, notesAbout_concat (by simp [Note.isAbout]),
          notesAbout_concat (by simp [Note.isAbout]), hreason, tags_compose, htags]
        exact hfired.done
      · rw [hnotes, issued_compose]
        exact numbers_concat (numbers_concat h.numbers rfl) rfl
  · have hother : ∀ note ∈ (match (s.compose key sources timeout).reason? (.merged key) with
        | some reason => [Note.fired (.merged key) reason, .closed (.merged key)]
        | none => []), note.isAbout name = false := by
      split <;> simp [Note.isAbout, Ne.symm hname]
    exact h.elsewhere (List.forall_mem_nil _) hother (reason?_compose_of_ne _ _ _ _ hname)
      (tags_compose ..) (issued_compose ..)

end Told

theorem telling_told (name : Name κ) : Telling (Told name) where
  errand _ _ _ _ h := h.errand
  expire _ _ _ h := h.push rfl
  clock _ _ _ h := ⟨h.stage, h.numbers⟩

end Store

end DaemonRpc.Signal

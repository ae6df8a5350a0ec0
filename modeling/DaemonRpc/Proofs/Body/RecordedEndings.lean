import DaemonRpc.Proofs.Body.Holding
import DaemonRpc.Proofs.Body.RecordTrace
import DaemonRpc.Proofs.Body.ReportedFailures

/-!
# What the recorded termination tells

A view of octets records how its reading ended at the poll that ends it, and never again
(`ByteView.Traced`). A view of records reads on in what it has when the octets have ended, so what
is recorded may still change: a line that is refused afterwards replaces it, and nothing else does.

`RecordView.Stands` says where a view of records is: it reads, the octets have ended, or it has
answered an error. It also says which refusal is to come, given what the octets will answer;
each poll asks the octets some number of times and moves by what they answer (`Stands.poll`).
-/

namespace DaemonRpc

/-- The error that is answered. -/
def Poll.error? {α : Type} : Poll α → Option Error
  | .failed e => some e
  | .pending | .item _ | .finished => none

theorem Poll.error?_eq_some_iff {α : Type} {answer : Poll α} {e : Error} :
    answer.error? = some e ↔ answer = .failed e := by
  cases answer <;> simp [error?]

/-- The first error in answers is one of them. -/
theorem Poll.mem_of_findSome? {α : Type} {answers : List (Poll α)} {e : Error}
    (h : answers.findSome? error? = some e) : .failed e ∈ answers := by
  obtain ⟨answer, hmem, herror⟩ := List.exists_of_findSome?_eq_some h
  rwa [← error?_eq_some_iff.1 herror]

theorem Poll.findSome?_cons {α : Type} (answer : Poll α) (answers : List (Poll α)) :
    (answer :: answers).findSome? error? = answer.error?.or (answers.findSome? error?) := by
  cases answer <;> rfl

theorem Poll.findSome?_eq_none_iff {α : Type} {answers : List (Poll α)} :
    answers.findSome? error? = none ↔ ∀ e, .failed e ∉ answers := by
  rw [List.findSome?_eq_none_iff]
  constructor
  · exact fun h e hmem => Option.some_ne_none e (h _ hmem)
  · intro h answer hmem
    rw [Option.eq_none_iff_forall_ne_some]
    exact fun e herror => h e (error?_eq_some_iff.1 herror ▸ hmem)

/-! ## Octets -/

namespace ByteView

variable {v : ByteView} {source : BodySource} {closing how : Option Termination}
  {firings : List (Option AbortReason)} {answers : List (Poll (List UInt8))}

/-- The answer of a poll that ends a reading and what is recorded then, given with what reason the
signal has fired and how the body ends by itself. -/
inductive Ending (closing : Option Termination) :
    Option AbortReason → Poll (List UInt8) → Termination → Prop
  | cancelled (reason : AbortReason) :
      Ending closing (some reason) (.failed reason.error) (.cancelled reason)
  | closed {answer : Poll (List UInt8)} {how : Termination} (closes : closing = some how)
      (answer_of : how.Answers answer) : Ending closing none answer how

/-- The end of the octets is recorded as clean, and only that. -/
theorem Ending.clean_iff {fired : Option AbortReason} {answer : Poll (List UInt8)}
    {how : Termination} (h : Ending closing fired answer how) :
    (how = .endedCleanly ↔ answer = .finished) ∧
      (how ≠ .endedCleanly ↔ ∃ e, answer = .failed e) := by
  rcases h with reason | ⟨-, _ | _ | _⟩ <;> simp

/-- What is recorded of a run of polls: nothing before the poll that ends the reading, and how it
ended from then on, after which nothing is answered. -/
inductive Traced (closing : Option Termination) :
    List (Option AbortReason) → List (Poll (List UInt8)) → Option Termination → Prop
  | unended {firings : List (Option AbortReason)} {shown : List (Poll (List UInt8))}
      (goes_on : ∀ answer ∈ shown, answer.isEnd = false) : Traced closing firings shown none
  | ended {before after : List (Option AbortReason)} {fired : Option AbortReason}
      {shown : List (Poll (List UInt8))} {last : Poll (List UInt8)} {how : Termination}
      (length_eq : shown.length = before.length) (goes_on : ∀ answer ∈ shown, answer.isEnd = false)
      (ending : Ending closing fired last how) :
      Traced closing (before ++ fired :: after)
        (shown ++ last :: List.replicate after.length .finished) (some how)

/-- An answer that does not end the reading comes before what is recorded. -/
theorem Traced.cons {answer : Poll (List UInt8)} (hanswer : answer.isEnd = false)
    (h : Traced closing firings answers how) (fired : Option AbortReason) :
    Traced closing (fired :: firings) (answer :: answers) how := by
  cases h with
  | unended hgoes => exact .unended (List.forall_mem_cons.2 ⟨hanswer, hgoes⟩)
  | ended hlength hgoes hending =>
    rw [← List.cons_append, ← List.cons_append]
    exact .ended (by simpa using hlength) (List.forall_mem_cons.2 ⟨hanswer, hgoes⟩) hending

/-- A poll of a view that reads goes on or ends the reading. -/
theorem poll_open (hsource : v.source = some source) (hopen : v.termination = none)
    (fired : Option AbortReason) :
    Continues v (v.poll fired).2 source (v.poll fired).1 ∨
      ∃ how, Ending (closing? v.headReport source.steps) fired (v.poll fired).1 how ∧
        (v.poll fired).2.source = none ∧ (v.poll fired).2.termination = some how := by
  cases fired with
  | some reason =>
    have hpoll : v.poll (some reason) =
        (.failed reason.error, v.closeWith (.cancelled reason)) := by
      simp [poll, hsource]
    rw [hpoll]
    exact .inr ⟨_, .cancelled reason, rfl, by rw [closeWith, hopen]; rfl⟩
  | none =>
    refine (poll_none hsource hopen).imp id ?_
    rintro ⟨how, hcloses, hclosed⟩
    exact ⟨how, .closed hcloses hclosed.answer, hclosed.source, hclosed.termination⟩

theorem Continues.isEnd {w : ByteView} {answer : Poll (List UInt8)}
    (h : Continues v w source answer) : answer.isEnd = false := by
  rcases h.answer with rfl | ⟨octets, rfl⟩ <;> rfl

theorem Ending.isEnd {fired : Option AbortReason} {answer : Poll (List UInt8)} {how : Termination}
    (h : Ending closing fired answer how) : answer.isEnd = true := by
  rcases h with reason | ⟨-, _ | _ | _⟩ <;> rfl

/-- An answer that does not end the reading leaves the view open. -/
theorem open_of_poll {w : ByteView} {fired : Option AbortReason} {answer : Poll (List UInt8)}
    (hsource : v.source = some source) (hopen : v.termination = none)
    (hpoll : v.poll fired = (answer, w)) (hgoes : answer.isEnd = false) :
    (∃ rest, w.source = some rest) ∧ w.termination = none := by
  rcases poll_open hsource hopen fired with hcontinues | ⟨how, hending, -⟩
  · rw [hpoll] at hcontinues
    obtain ⟨rest, hrest, -⟩ := hcontinues.source
    exact ⟨⟨_, hrest⟩, hcontinues.termination⟩
  · have hend := hending.isEnd
    simp [hpoll, hgoes] at hend

/-- After the answer that ends the reading it is recorded whether it ended cleanly. -/
theorem recorded_of_poll {w : ByteView} {fired : Option AbortReason} {answer : Poll (List UInt8)}
    (hsource : v.source = some source) (hopen : v.termination = none)
    (hpoll : v.poll fired = (answer, w)) (hend : answer.isEnd = true) :
    ∃ how, w.termination = some how ∧ (how = .endedCleanly ↔ answer = .finished) := by
  rcases poll_open hsource hopen fired with hcontinues | ⟨how, hending, -, hhow⟩
  · have hgoes := hcontinues.isEnd
    simp [hpoll, hend] at hgoes
  · rw [hpoll] at hending hhow
    exact ⟨how, hhow, hending.clean_iff.1⟩

theorem pollAll_traced (hsource : v.source = some source) (hopen : v.termination = none)
    (firings : List (Option AbortReason)) :
    Traced (closing? v.headReport source.steps) firings (pollAll poll v firings).1
      (pollAll poll v firings).2.termination := by
  induction firings generalizing v source with
  | nil =>
    simp only [pollAll, hopen]
    exact .unended (by simp)
  | cons fired more ih =>
    simp only [pollAll]
    rcases poll_open hsource hopen fired with hgoes | ⟨how, hending, hclosed, hhow⟩
    · -- The body ends as before, and so does the reading of its rest.
      obtain ⟨rest, hrest, hcloses, -⟩ := hgoes.source
      have htraced := ih hrest hgoes.termination
      rw [hgoes.headReport, hcloses] at htraced
      exact htraced.cons hgoes.isEnd fired
    · rw [pollAll_closed hclosed, hhow]
      exact @Traced.ended _ [] more fired [] _ how rfl (by simp) hending

/-- What is recorded stays as it is. -/
theorem Sound.pollAll_of_recorded (h : v.Sound) {how : Termination}
    (hhow : v.termination = some how) (firings : List (Option AbortReason)) :
    (DaemonRpc.pollAll ByteView.poll v firings).2.termination = some how := by
  have hclosed : v.source = none := by simpa [Sound, hhow] using h
  rw [pollAll_closed hclosed, hhow]

theorem Sound.pollAll (h : v.Sound) (firings : List (Option AbortReason)) :
    (DaemonRpc.pollAll ByteView.poll v firings).2.Sound := by
  induction firings generalizing v with
  | nil => exact h
  | cons fired more ih => exact ih (h.poll fired)

/-- At the end of the octets, the recorded termination is clean if no error was answered. -/
theorem Traced.clean_iff (h : Traced closing firings answers how) (hend : .finished ∈ answers) :
    how = some .endedCleanly ↔ ∀ e, .failed e ∉ answers := by
  cases h with
  | unended hgoes => simpa [Poll.isEnd] using hgoes _ hend
  | @ended _ _ _ shown last how _ hgoes hending =>
    have hshown : ∀ e, .failed e ∉ shown := fun e hmem => by simpa [Poll.isEnd] using hgoes _ hmem
    have hlast := hending.clean_iff
    simp only [Option.some.injEq, hlast.1, List.mem_append, List.mem_cons, List.mem_replicate,
      hshown, false_or]
    constructor
    · rintro rfl e
      simp
    · intro hclean
      by_contra hne
      obtain ⟨e, rfl⟩ := hlast.2.1 (fun h => hne (hlast.1.1 h))
      exact hclean e (.inl rfl)

end ByteView

/-! ## Lines that the octets give -/

/-- The octets in answers up to the end of the reading. -/
def octetsOf (answers : List (Poll (List UInt8))) : List UInt8 :=
  (answers.takeWhile (!·.isEnd)).flatMap fun
    | .item octets => octets
    | _ => []

/-- How the octets end in answers, if they do: cleanly or with an error. -/
def endOf? : List (Poll (List UInt8)) → Option (Option Error)
  | [] => none
  | .failed e :: _ => some (some e)
  | .finished :: _ => some none
  | .pending :: more | .item _ :: more => endOf? more

/-- The error of the first line that is refused. -/
def firstRefusal? (transform : Option RecordTransform) (lines : List String) : Option Error :=
  lines.findSome? fun line =>
    match recordOf transform line with
    | .ok _ => none
    | .error e => some e

/-- The lines that answers give after the octets of an unfinished line; the line that is unfinished
then counts only if the octets end and it is kept. -/
def linesAfter (l : List UInt8) (answers : List (Poll (List UInt8))) : List String :=
  Framer.endedLines (l ++ octetsOf answers) ++
    (endOf? answers).elim [] (keptLast (Framer.lastLine (l ++ octetsOf answers)))

/-- A chunk ends lines and leaves another one unfinished. -/
theorem linesAfter_item (l chunk : List UInt8) (more : List (Poll (List UInt8))) :
    linesAfter l (.item chunk :: more) =
      Framer.endedLines (l ++ chunk) ++ linesAfter (cutAt 0x0A (l ++ chunk)).2 more := by
  have hoctets : l ++ octetsOf (.item chunk :: more) = (l ++ chunk) ++ octetsOf more := by
    simp [octetsOf, Poll.isEnd]
  simp only [linesAfter, hoctets, endOf?, Framer.endedLines, Framer.lastLine]
  rw [cutAt_append 0x0A (l ++ chunk), List.filterMap_append, List.append_assoc]

/-- The end of the octets keeps the unfinished line or not. -/
theorem linesAfter_of_endOf? (l : List UInt8) {answer : Poll (List UInt8)}
    (hend : answer.isEnd = true) {ending : Option Error} {more : List (Poll (List UInt8))}
    (hending : endOf? (answer :: more) = some ending) :
    linesAfter l (answer :: more) = keptLines l ending := by
  have hoctets : l ++ octetsOf (answer :: more) = l := by simp [octetsOf, hend]
  rw [linesAfter, hoctets, hending]
  rfl

namespace RecordView

variable {v w : RecordView} {transform : Option RecordTransform} {fired : Option AbortReason}

/-! ## Views that only deliver -/

/-- The next answer of a view that has read all octets. -/
inductive Serves (v : RecordView) : Poll Json.Value → RecordView → Prop
  | record {line : String} {rest : List String} {value : Json.Value}
      (ready : v.ready = line :: rest) (record : recordOf v.transform line = .ok value) :
      Serves v (.item value) { v with ready := rest }
  | refused {line : String} {rest : List String} {e : Error} (ready : v.ready = line :: rest)
      (record : recordOf v.transform line = .error e) :
      Serves v (.failed e) { v.stop with refusal := some e.message }
  | deferred {e : Error} (ready : v.ready = []) (deferred : v.deferred = some e) :
      Serves v (.failed e) v.stop
  | done (ready : v.ready = []) (deferred : v.deferred = none) : Serves v .finished v

theorem serves_deliver {line : String} {rest : List String} (hready : v.ready = line :: rest) :
    v.Serves (v.deliver line rest).1 (v.deliver line rest).2 := by
  rw [deliver, record_eq]
  cases hrecord : recordOf v.transform line with
  | ok value => exact .record hready hrecord
  | error e => exact .refused hready hrecord

theorem serves_poll (h : v.reading = false) (fired : Option AbortReason) :
    v.Serves (v.poll fired).1 (v.poll fired).2 := by
  fun_cases RecordView.poll v fired with
  | case1 line rest hready => exact serves_deliver hready
  | case2 e hdeferred hready => exact .deferred hready hdeferred
  | case8 hdeferred hready => exact .done hready hdeferred
  | case3 | case4 | case5 | case6 | case7 => simp_all

/-- There is nothing more to answer. -/
structure Exhausted (v : RecordView) : Prop where
  reading : v.reading = false
  ready : v.ready = []
  deferred : v.deferred = none

theorem Exhausted.poll_eq (h : v.Exhausted) (fired : Option AbortReason) :
    v.poll fired = (.finished, v) := by
  rw [RecordView.poll]
  simp [h.reading, h.ready, h.deferred]

theorem Exhausted.pollAll_eq (h : v.Exhausted) (firings : List (Option AbortReason)) :
    pollAll poll v firings = (List.replicate firings.length .finished, v) := by
  induction firings with
  | nil => rfl
  | cons fired more ih => simp [pollAll, h.poll_eq, ih, List.replicate_succ]

theorem exhausted_of_finished (h : (v.poll fired).1 = .finished) : (v.poll fired).2.Exhausted := by
  fun_induction RecordView.poll v fired with
  | case1 v line rest hready =>
    rw [deliver] at h
    split at h <;> cases h
  | case2 | case3 | case6 => cases h
  | case4 _ _ _ _ _ _ _ _ ih | case5 _ _ _ _ _ _ _ _ ih | case7 _ _ _ _ _ _ ih => exact ih h
  | case8 v hdeferred hready hstopped => exact ⟨by simpa using hstopped, hready, hdeferred⟩

/-- A view whose end was answered has nothing more to answer. -/
theorem exhausted_of_mem {firings : List (Option AbortReason)}
    (h : .finished ∈ (pollAll poll v firings).1) : (pollAll poll v firings).2.Exhausted := by
  induction firings generalizing v with
  | nil => simp [pollAll] at h
  | cons fired more ih =>
    rcases List.mem_cons.1 h with hfirst | hmore
    · have hexhausted := exhausted_of_finished hfirst.symm
      simp only [pollAll, hexhausted.pollAll_eq]
      exact hexhausted
    · exact ih hmore

/-- An answer keeps what is recorded, or it is the refusal of a line, which replaces it and is the
last. -/
theorem Serves.termination_cases {answer : Poll Json.Value} (h : v.Serves answer w)
    (hreading : v.reading = false) :
    w.reading = false ∧ w.transform = v.transform ∧
      (w.termination = v.termination ∨
        ∃ line e, recordOf v.transform line = .error e ∧ answer = .failed e ∧
          w.termination = some (.failed e.message) ∧ w.Exhausted) := by
  cases h with
  | record => exact ⟨hreading, rfl, .inl rfl⟩
  | @refused line rest e ready record =>
    exact ⟨rfl, rfl, .inr ⟨line, e, record, rfl, rfl, rfl, rfl, rfl⟩⟩
  | deferred => exact ⟨rfl, rfl, .inl rfl⟩
  | done => exact ⟨hreading, rfl, .inl rfl⟩

/-- When the octets have been read, what is recorded stays, or the refusal of a line replaces it. -/
theorem termination_pollAll (h : v.reading = false) (firings : List (Option AbortReason)) :
    (pollAll poll v firings).2.termination = v.termination ∨
      ∃ line e, recordOf v.transform line = .error e ∧ .failed e ∈ (pollAll poll v firings).1 ∧
        (pollAll poll v firings).2.termination = some (.failed e.message) := by
  induction firings generalizing v with
  | nil => exact .inl rfl
  | cons fired more ih =>
    simp only [pollAll]
    obtain ⟨hreading, htransform, hsame | ⟨line, e, herror, hanswer, hhow, hexhausted⟩⟩ :=
      (serves_poll h fired).termination_cases h
    · rw [← hsame, ← htransform]
      refine (ih hreading).imp id ?_
      rintro ⟨line, e, herror, hmem, hhow⟩
      exact ⟨line, e, herror, List.mem_cons_of_mem _ hmem, hhow⟩
    · rw [hexhausted.pollAll_eq, hanswer]
      exact .inr ⟨line, e, herror, List.mem_cons_self, hhow⟩

/-- The change to records stays. -/
theorem transform_poll (v : RecordView) (fired : Option AbortReason) :
    (v.poll fired).2.transform = v.transform := by
  fun_induction RecordView.poll v fired with
  | case1 v line rest hready =>
    rw [deliver]
    cases v.record line <;> rfl
  | case2 | case3 | case6 | case8 => rfl
  | case4 _ _ _ _ _ _ _ _ ih | case5 _ _ _ _ _ _ _ _ ih | case7 _ _ _ _ _ _ ih => exact ih

theorem transform_pollAll (v : RecordView) (firings : List (Option AbortReason)) :
    (pollAll poll v firings).2.transform = v.transform := by
  induction firings generalizing v with
  | nil => rfl
  | cons fired more ih => exact (ih _).trans (v.transform_poll fired)

/-! ## Where a view stands -/

/-- Where the view stands, and which error it has answered: which refusal is to come, given what
the octets will answer. -/
inductive Stands : RecordView → (List (Poll (List UInt8)) → Option Error) → Option Error → Prop
  /-- More octets are read, which are within a line. -/
  | reading {v : RecordView} {source : BodySource} {l : List UInt8} (reading : v.reading = true)
      (deferred : v.deferred = none) (refusal : v.refusal = none)
      (source_eq : v.bytes.source = some source) (open_ : v.bytes.termination = none)
      (free : (0x0A : UInt8) ∉ l) (framer : v.framer = .within l) :
      Stands v (fun heard => firstRefusal? v.transform (v.ready ++ linesAfter l heard)) none
  /-- The octets have ended, and no error was answered. -/
  | ended {v : RecordView} {how : Termination} (reading : v.reading = false)
      (refusal : v.refusal = none) (recorded : v.bytes.termination = some how)
      (clean_iff : how = .endedCleanly ↔ v.deferred = none) :
      Stands v (fun _ => firstRefusal? v.transform v.ready) none
  /-- An error was answered: the refusal of a line or another one. -/
  | failed {v : RecordView} {e : Error} {refused : Option Error} {how : Termination}
      (exhausted : v.Exhausted) (refusal : v.refusal = refused.map Error.message)
      (answered : ∀ cause, refused = some cause → cause = e) (recorded : v.termination = some how)
      (not_clean : how ≠ .endedCleanly) : Stands v (fun _ => refused) (some e)

/-- The view reads these octets, or has read them and what they recorded counts for it. -/
structure Mirrors (v : RecordView) (octets : ByteView) : Prop where
  bytes : v.reading = true → v.bytes = octets
  termination : v.refusal = none → v.bytes.termination = octets.termination

theorem stands_ofBytes {bytes : ByteView} {source : BodySource}
    (hsource : bytes.source = some source) (hopen : bytes.termination = none)
    (transform : Option RecordTransform) :
    (ofBytes bytes transform).Stands (fun heard => firstRefusal? transform (linesAfter [] heard))
      none :=
  .reading (v := ofBytes bytes transform) (l := []) rfl rfl rfl hsource hopen (by simp) rfl

theorem firstRefusal?_cons_ok {line : String} {value : Json.Value}
    (h : recordOf transform line = .ok value) (lines : List String) :
    firstRefusal? transform (line :: lines) = firstRefusal? transform lines := by
  simp [firstRefusal?, h]

theorem firstRefusal?_cons_error {line : String} {e : Error}
    (h : recordOf transform line = .error e) (lines : List String) :
    firstRefusal? transform (line :: lines) = some e := by
  simp [firstRefusal?, h]

/-- A line was refused. -/
theorem stands_refused (v : RecordView) (e : Error) :
    ({ v.stop with refusal := some e.message } : RecordView).Stands (fun _ => some e) (some e) :=
  .failed ⟨rfl, rfl, rfl⟩ rfl (by simp) rfl (by simp)

/-- The octets ended with an error, which was answered. -/
theorem stands_stop {how : Termination} (hrefusal : v.refusal = none)
    (hhow : v.bytes.termination = some how) (hclean : how ≠ .endedCleanly) (e : Error) :
    v.stop.Stands (fun _ => none) (some e) := by
  refine .failed ⟨rfl, rfl, rfl⟩ hrefusal (by simp) ?_ hclean
  simp [termination, stop, ByteView.close, hrefusal, hhow]

/-- A poll when the octets have ended. -/
theorem Stands.serves {owed : List (Poll (List UInt8)) → Option Error} {failed : Option Error}
    (h : v.Stands owed failed) (hreading : v.reading = false) {answer : Poll Json.Value}
    (hserves : v.Serves answer w) :
    ∃ owed', w.Stands owed' (failed.or answer.error?) ∧ (∀ heard, owed heard = owed' heard) ∧
      ∀ bytes, v.Mirrors bytes → w.Mirrors bytes := by
  cases h with
  | reading hreads => simp [hreading] at hreads
  | @ended how hended hrefusal hrecorded hclean =>
    cases hserves with
    | @record line rest value hready hrecord =>
      refine ⟨_, .ended (v := { v with ready := rest }) hended hrefusal hrecorded hclean,
        fun _ => ?_, fun bytes h => ⟨h.bytes, h.termination⟩⟩
      rw [hready, firstRefusal?_cons_ok hrecord]
    | @refused line rest e hready hrecord =>
      refine ⟨_, v.stands_refused e, fun _ => ?_, fun bytes h => ⟨by simp [stop], by simp⟩⟩
      rw [hready, firstRefusal?_cons_error hrecord]
    | @deferred e hready hdeferred =>
      refine ⟨_, stands_stop hrefusal hrecorded (by simp [hclean, hdeferred]) e, fun _ => ?_,
        fun bytes h => ⟨by simp [stop], h.termination⟩⟩
      rw [hready]
      rfl
    | done => exact ⟨_, .ended hended hrefusal hrecorded hclean, fun _ => rfl, fun _ h => h⟩
  | failed hexhausted hrefusal hanswered hrecorded hclean =>
    cases hserves with
    | record hready | refused hready => simp [hexhausted.ready] at hready
    | deferred _ hdeferred => simp [hexhausted.deferred] at hdeferred
    | done =>
      exact ⟨_, .failed hexhausted hrefusal hanswered hrecorded hclean, fun _ => rfl, fun _ h => h⟩

/-- A poll right after the octets have ended, if the unfinished line is kept. -/
theorem stands_atEnd {l : List UInt8} (hrefusal : v.refusal = none) (hfree : (0x0A : UInt8) ∉ l)
    (hframer : v.framer = .within l) {bytes : ByteView} (ending : Option Error) {how : Termination}
    (hkept : ending.all (·.isStreamTrailer) = true) (hhow : bytes.termination = some how)
    (hclean : how = .endedCleanly ↔ ending = none) (fired : Option AbortReason) :
    ∃ owed', ((v.atEnd bytes ending).poll fired).2.Stands owed'
        ((v.atEnd bytes ending).poll fired).1.error? ∧
      (∀ heard, firstRefusal? v.transform (keptLines l ending) = owed' heard) ∧
        ((v.atEnd bytes ending).poll fired).2.Mirrors bytes := by
  have hstands : (v.atEnd bytes ending).Stands _ none := .ended rfl hrefusal hhow hclean
  obtain ⟨owed', hafter, howed, hkeeps⟩ := hstands.serves rfl (serves_poll rfl fired)
  rw [ready_atEnd hfree hframer bytes hkept] at howed
  rw [Option.none_or] at hafter
  exact ⟨owed', hafter, howed, hkeeps bytes ⟨by simp [atEnd], fun _ => rfl⟩⟩

/-- A poll asks the octets some number of times and moves by what they answer. -/
theorem Stands.poll {owed : List (Poll (List UInt8)) → Option Error} {failed : Option Error}
    (h : v.Stands owed failed) {octets : ByteView} (hmirrors : v.Mirrors octets)
    (fired : Option AbortReason) :
    ∃ n owed', let run := pollAll ByteView.poll octets (List.replicate n fired)
      (v.poll fired).2.Stands owed' (failed.or (v.poll fired).1.error?) ∧
        (∀ heard, owed (run.1 ++ heard) = owed' heard) ∧ (v.poll fired).2.Mirrors run.2 := by
  cases hreading : v.reading with
  | false =>
    obtain ⟨owed', hstands, howed, hkeeps⟩ := h.serves hreading (serves_poll hreading fired)
    exact ⟨0, owed', hstands, howed, hkeeps octets hmirrors⟩
  | true =>
  cases h with
  | ended hended => simp [hreading] at hended
  | failed hexhausted => simp [hexhausted.reading] at hreading
  | @reading source l _ hdeferred hrefusal hsource hopen hfree hframer =>
  obtain rfl : v.bytes = octets := hmirrors.bytes hreading
  rw [Option.none_or]
  clear hmirrors
  -- As many polls of the octets as turns of the loop that read.
  fun_induction RecordView.poll v fired generalizing source l with
  | case1 v line rest hready =>
    refine ⟨0, ?_⟩
    simp only [List.replicate_zero, pollAll, List.nil_append, deliver, record_eq]
    cases hrecord : recordOf v.transform line with
    | ok value =>
      refine ⟨_, .reading (v := { v with ready := rest }) hreading hdeferred hrefusal hsource hopen
        hfree hframer, fun heard => ?_, fun _ => rfl, fun _ => rfl⟩
      rw [hready, List.cons_append, firstRefusal?_cons_ok hrecord]
    | error e =>
      refine ⟨_, v.stands_refused e, fun heard => ?_, by simp [stop], by simp⟩
      rw [hready, List.cons_append, firstRefusal?_cons_error hrecord]
  | case2 v e hsome hready => simp [hdeferred] at hsome
  | case3 v hnone hready _ w hpoll =>
    refine ⟨1, ?_⟩
    simp only [List.replicate_one, pollAll, hpoll]
    obtain ⟨⟨rest, hrest⟩, hstill⟩ := ByteView.open_of_poll hsource hopen hpoll rfl
    exact ⟨_, .reading (v := { v with bytes := w }) hreading hdeferred hrefusal hrest hstill hfree
      hframer, fun heard => rfl, fun _ => rfl, fun _ => rfl⟩
  | case4 v hnone hready _ chunk w hpoll _ ih =>
    -- A chunk: the loop goes on with the lines that ended in it.
    obtain ⟨⟨rest, hrest⟩, hstill⟩ := ByteView.open_of_poll hsource hopen hpoll rfl
    have hnext := isCut_cutAt 0x0A (l ++ chunk)
    rw [withChunk_within hfree hframer] at ih ⊢
    obtain ⟨n, owed', hstands, howed, hkeeps⟩ :=
      ih hreading hreading hdeferred hrefusal hrest hstill hnext.rest_free rfl
    refine ⟨n + 1, owed', ?_⟩
    simp only [List.replicate_succ, pollAll, hpoll, List.cons_append]
    refine ⟨hstands, fun heard => ?_, hkeeps⟩
    rw [← howed, hready, List.nil_append, linesAfter_item]
  | case5 v hnone hready _ e w hpoll htrailer ih =>
    -- A report of the daemon is kept for after the last line.
    obtain ⟨how, hhow, hclean⟩ := ByteView.recorded_of_poll hsource hopen hpoll rfl
    obtain ⟨owed', hstands, howed, hkeeps⟩ := stands_atEnd hrefusal hfree hframer (some e)
      (by simpa using htrailer) hhow (by simpa using hclean) fired
    refine ⟨1, owed', ?_⟩
    simp only [List.replicate_one, pollAll, hpoll]
    refine ⟨hstands, fun heard => ?_, hkeeps⟩
    rw [← howed heard, hready, List.nil_append, List.singleton_append,
      linesAfter_of_endOf? l rfl rfl]
  | case6 v hnone hready _ e w hpoll htrailer =>
    obtain ⟨how, hhow, hclean⟩ := ByteView.recorded_of_poll hsource hopen hpoll rfl
    refine ⟨1, ?_⟩
    simp only [List.replicate_one, pollAll, hpoll]
    refine ⟨_, stands_stop (v := { v with bytes := w }) hrefusal hhow (by simp [hclean]) e,
      fun heard => ?_, by simp [stop], fun _ => rfl⟩
    -- Any other error comes at once, and the unfinished line does not count.
    rw [hready, List.nil_append, List.singleton_append, linesAfter_of_endOf? l rfl rfl,
      keptLines_of_not_mem hfree, keptLast, if_neg (by simpa using htrailer)]
    rfl
  | case7 v hnone hready _ w hpoll ih =>
    obtain ⟨how, hhow, hclean⟩ := ByteView.recorded_of_poll hsource hopen hpoll rfl
    obtain ⟨owed', hstands, howed, hkeeps⟩ :=
      stands_atEnd hrefusal hfree hframer none rfl hhow (by simpa using hclean) fired
    refine ⟨1, owed', ?_⟩
    simp only [List.replicate_one, pollAll, hpoll]
    refine ⟨hstands, fun heard => ?_, hkeeps⟩
    rw [← howed heard, hready, List.nil_append, List.singleton_append,
      linesAfter_of_endOf? l rfl rfl]
  | case8 v hnone hready hstopped => exact absurd hreading hstopped

/-- A run of polls asks the octets some number of times and moves by what they answer. -/
theorem Stands.pollAll {owed : List (Poll (List UInt8)) → Option Error} {failed : Option Error}
    (h : v.Stands owed failed) {octets : ByteView} (hmirrors : v.Mirrors octets)
    (firings : List (Option AbortReason)) :
    ∃ (counts : List Nat) (owed' : List (Poll (List UInt8)) → Option Error),
      counts.length = firings.length ∧
      let asked := (List.zipWith List.replicate counts firings).flatten
      let heard := DaemonRpc.pollAll ByteView.poll octets asked
      let run := DaemonRpc.pollAll RecordView.poll v firings
      run.2.Stands owed' (failed.or (run.1.findSome? Poll.error?)) ∧
        (∀ more, owed (heard.1 ++ more) = owed' more) ∧ run.2.Mirrors heard.2 := by
  induction firings generalizing v owed failed octets with
  | nil => exact ⟨[], owed, rfl, by simpa [DaemonRpc.pollAll] using h, fun _ => rfl, hmirrors⟩
  | cons fired more ih =>
    obtain ⟨n, mid, hstands, hmid, hmirrors⟩ := h.poll hmirrors fired
    obtain ⟨counts, owed', hlength, hlast, howed, hkeeps⟩ := ih hstands hmirrors
    refine ⟨n :: counts, owed', by simp [hlength], ?_⟩
    simp only [List.zipWith_cons_cons, List.flatten_cons, DaemonRpc.pollAll,
      Poll.findSome?_cons]
    rw [pollAll_append, ← Option.or_assoc]
    refine ⟨hlast, fun later => ?_, hkeeps⟩
    rw [List.append_assoc, hmid, howed]

/-- When nothing more is to be answered, what is recorded is the refusal of a line, which was
answered, or else what the octets recorded. -/
theorem Stands.termination_eq {owed : List (Poll (List UInt8)) → Option Error}
    {failed : Option Error} (h : v.Stands owed failed) {octets : ByteView}
    (hmirrors : v.Mirrors octets) (hexhausted : v.Exhausted) :
    (∀ e, owed [] = some e → failed = some e) ∧
      v.termination = ((owed []).map fun e => .failed e.message).or octets.termination := by
  cases h with
  | reading hreads => simp [hexhausted.reading] at hreads
  | ended _ hrefusal =>
    rw [hexhausted.ready]
    simp [termination, hrefusal, hmirrors.termination hrefusal, firstRefusal?]
  | @failed e refused how _ hrefusal hanswered =>
    refine ⟨fun cause hcause => (hanswered cause hcause).symm ▸ rfl, ?_⟩
    cases refused with
    | some e => simp [termination, hrefusal]
    | none => simp [termination, hrefusal, hmirrors.termination hrefusal]

/-- When nothing more is to be answered, something is recorded, and it is clean if no error was
answered. -/
theorem Stands.clean_iff {owed : List (Poll (List UInt8)) → Option Error} {failed : Option Error}
    (h : v.Stands owed failed) (hexhausted : v.Exhausted) :
    ∃ how, v.termination = some how ∧ (how = .endedCleanly ↔ failed = none) := by
  cases h with
  | reading hreads => simp [hexhausted.reading] at hreads
  | @ended how _ hrefusal hrecorded hclean =>
    refine ⟨how, ?_, by simp [hclean, hexhausted.deferred]⟩
    simp [termination, hrefusal, hrecorded]
  | @failed e refused how _ hrefusal hanswered hrecorded hclean =>
    exact ⟨how, hrecorded, by simp [hclean]⟩

/-- Something is recorded only when the octets have been read. -/
theorem Stands.reading_of_recorded {owed : List (Poll (List UInt8)) → Option Error}
    {failed : Option Error} (h : v.Stands owed failed) {how : Termination}
    (hhow : v.termination = some how) : v.reading = false := by
  cases h with
  | reading _ _ hrefusal _ hopen => simp [termination, hrefusal, hopen] at hhow
  | ended hreading => exact hreading
  | failed hexhausted => exact hexhausted.reading

end RecordView

/-- What is recorded tells how the reading ended, in any run of polls.

Of a view of octets nothing is recorded before the poll that ends the reading; it records the
reason of the signal, the report of the daemon or the error of the body that the poll answers, or
that the body has ended cleanly, and that stays. At the end it is clean if no error was answered.

Of a view of records, what is recorded at the end is clean if no error was answered. It is the
refusal of the first line that is refused among those that the octets gave, and otherwise what the
octets recorded. A refusal is also the only thing that ever replaces what is recorded. -/
theorem recorded_of_pollAll (source : BodySource) (headReport : Option String)
    (transform : Option RecordTransform) (firings later : List (Option AbortReason)) :
    let octets : ByteView := { source := some source, headReport }
    let run := pollAll ByteView.poll octets firings
    let records := pollAll RecordView.poll (.ofBytes octets transform) firings
    let rest := pollAll RecordView.poll records.2 later
    (ByteView.Traced (closing? headReport source.steps) firings run.1 run.2.termination ∧
      (.finished ∈ run.1 →
        (run.2.termination = some .endedCleanly ↔ ∀ e, .failed e ∉ run.1)) ∧
      ∀ how, run.2.termination = some how →
        (pollAll ByteView.poll run.2 later).2.termination = some how) ∧
    (.finished ∈ records.1 →
      (∃ how, records.2.termination = some how ∧
        (how = .endedCleanly ↔ ∀ e, .failed e ∉ records.1)) ∧
      ∃ counts : List Nat, counts.length = firings.length ∧
        let asked := (List.zipWith List.replicate counts firings).flatten
        let heard := pollAll ByteView.poll octets asked
        ∃ lines last, Framed (octetsOf heard.1) lines last ∧
          let kept := (endOf? heard.1).elim [] (keptLast last)
          let refusal := firstRefusal? transform (lines ++ kept)
          (∀ e, refusal = some e → .failed e ∈ records.1) ∧
            records.2.termination =
              (refusal.map fun e => .failed e.message).or heard.2.termination) ∧
    ∀ how, records.2.termination = some how →
      rest.2.termination = some how ∨
        ∃ line e, recordOf transform line = .error e ∧ .failed e ∈ rest.1 ∧
          rest.2.termination = some (.failed e.message) := by
  intro octets run records rest
  have htraced : ByteView.Traced _ firings run.1 run.2.termination :=
    ByteView.pollAll_traced (v := octets) rfl rfl firings
  have hsound : run.2.Sound := ByteView.Sound.pollAll (v := octets) rfl firings
  obtain ⟨counts, owed, hlength, hstands, howed, hmirrors⟩ :=
    (@RecordView.stands_ofBytes octets source rfl rfl transform).pollAll
      ⟨fun _ => rfl, fun _ => rfl⟩ firings
  refine ⟨⟨htraced, htraced.clean_iff, fun how hhow => hsound.pollAll_of_recorded hhow later⟩,
    fun hend => ?_, fun how hhow => ?_⟩
  · have hexhausted := RecordView.exhausted_of_mem hend
    obtain ⟨how, hhow, hclean⟩ := hstands.clean_iff hexhausted
    refine ⟨⟨how, hhow, ?_⟩, counts, hlength, ?_⟩
    · rw [hclean, Option.none_or, Poll.findSome?_eq_none_iff]
    obtain ⟨hanswered, hrecorded⟩ := hstands.termination_eq hmirrors hexhausted
    rw [← howed [], List.append_nil] at hanswered hrecorded
    exact ⟨_, _, framed_iff.2 ⟨rfl, rfl⟩,
      fun e he => Poll.mem_of_findSome? (hanswered e he), hrecorded⟩
  · have hreading := hstands.reading_of_recorded hhow
    have hchange := RecordView.termination_pollAll hreading later
    rwa [RecordView.transform_pollAll, hhow] at hchange

end DaemonRpc

import Mathlib
import DaemonRpc.Proofs.Body.ByteTrace
import DaemonRpc.Proofs.Session.Slots

/-!
# What the stream in a slot answers

The answers of one stream while everything else goes on: other slots, aborts and the clock. The
stream meets the rest of the session only through the reason with which the signal of its call has
fired at each poll, so its answers are those of the stream alone under these reasons.
-/

namespace DaemonRpc

/-! ## Polls of a stream alone -/

namespace Stream

/-- A stream of octets answers as its view does. -/
theorem pollAll_bytes (view : ByteView) (firings : List (Option AbortReason)) :
    (pollAll poll (.bytes view) firings).1 =
      (pollAll ByteView.poll view firings).1.map (mapPoll .octets) := by
  induction firings generalizing view with
  | nil => rfl
  | cons fired more ih => simp only [pollAll, poll, List.map_cons, ih]

/-- Draining a stream is polling it under one and the same signal. -/
theorem drain_eq_pollAll (s : Stream) (fired : Option AbortReason) :
    s.drain fired = pollAll poll s (List.replicate (s.drain fired).1.length fired) := by
  fun_induction drain s fired with
  | case1 s t h | case2 s t h => simp [pollAll, h]
  | case3 s item t h _ answers last hdrain ih | case4 s e t h _ answers last hdrain ih =>
    -- After an item or an error the drain goes on under the same signal.
    rw [hdrain] at ih
    simp only [List.length_cons, List.replicate_succ, pollAll, h]
    rw [← ih]

/-- A drain is answered to its end: its last answer, and no other, is a wait or the end. -/
theorem exists_drain (s : Stream) (fired : Option AbortReason) :
    ∃ passed last, (s.drain fired).1 = passed ++ [last] ∧
      (∀ answer ∈ passed, answer.isPassing = true) ∧ last.isPassing = false := by
  fun_induction drain s fired with
  | case1 s t h => exact ⟨[], .pending, rfl, by simp, rfl⟩
  | case2 s t h => exact ⟨[], .finished, rfl, by simp, rfl⟩
  | case3 s item t h _ answers last hdrain ih =>
    obtain ⟨passed, final, hanswers, hpassed, hfinal⟩ := ih
    rw [hdrain] at hanswers
    exact ⟨.item item :: passed, final, congrArg (.item item :: ·) hanswers,
      List.forall_mem_cons.2 ⟨rfl, hpassed⟩, hfinal⟩
  | case4 s e t h _ answers last hdrain ih =>
    obtain ⟨passed, final, hanswers, hpassed, hfinal⟩ := ih
    rw [hdrain] at hanswers
    exact ⟨.failed e :: passed, final, congrArg (.failed e :: ·) hanswers,
      List.forall_mem_cons.2 ⟨rfl, hpassed⟩, hfinal⟩

end Stream

namespace Session

/-! ## Polls in a session -/

/-- What the stream in a slot answers in a step that asks it, each answer with the reason with which
the signal of its call has fired before. -/
def seen (name : String) (s : Session) (step : SessionStep) :
    List (Option AbortReason × Poll Item) :=
  match step, (s.step step).2.1 with
  | .next other, .item answer => if other = name then [(s.fired name, answer)] else []
  | .drain other, .items answers =>
    if other = name then answers.map fun answer => (s.fired name, answer) else []
  | _, _ => []

/-- All that the stream in a slot answers during steps. -/
def observe (name : String) (s : Session) :
    List SessionStep → List (Option AbortReason × Poll Item)
  | [] => []
  | step :: more => s.seen name step ++ observe name (s.step step).1 more

/-- The step asks the stream in the slot, or it is about something else. -/
def OnlyAsks (name : String) (step : SessionStep) : Prop :=
  step = .next name ∨ step = .drain name ∨ step.slot? ≠ some name

/-- How the stream in a slot answers a step: what asks for its next item is answered once, a drain
until the stream waits or is finished, and anything else not at all. -/
inductive Answers (name : String) : SessionStep → List (Poll Item) → Prop where
  | next (answer : Poll Item) : Answers name (.next name) [answer]
  | drain {passed : List (Poll Item)} {last : Poll Item}
      (hpassed : ∀ answer ∈ passed, answer.isPassing = true) (hlast : last.isPassing = false) :
      Answers name (.drain name) (passed ++ [last])
  | other {step : SessionStep} (h : step.slot? ≠ some name) : Answers name step []

/-- A step that is about something else shows nothing. -/
theorem seen_of_ne (s : Session) {name : String} {step : SessionStep}
    (h : step.slot? ≠ some name) : s.seen name step = [] := by
  unfold seen
  split
  · exact if_neg fun heq => h (congrArg some heq)
  · exact if_neg fun heq => h (congrArg some heq)
  · rfl

/-- A step that asks the stream shows its answers, and leaves the slot with the stream after
them. -/
theorem seen_eq_pollAll {s : Session} {name : String} {stream : Stream}
    (h : (s.slot name).activity = some (.stream stream)) {step : SessionStep}
    (hstep : step = .next name ∨ step = .drain name) :
    ∃ n, let run := pollAll Stream.poll stream (List.replicate n (s.fired name))
      s.seen name step = run.1.map (fun answer => (s.fired name, answer)) ∧
        run.1.length = n ∧ ((s.step step).1.slot name).activity = some (.stream run.2) := by
  rcases hstep with rfl | rfl
  · refine ⟨1, ?_⟩
    simp [seen, step, ask, h, pollAll]
  · refine ⟨(stream.drain (s.fired name)).1.length, ?_⟩
    rw [← Stream.drain_eq_pollAll]
    simp [seen, step, ask, h]

/-- An open stream answers each step that asks it. -/
theorem answers_seen {s : Session} {name : String} {stream : Stream}
    (h : (s.slot name).activity = some (.stream stream)) {step : SessionStep}
    (hstep : OnlyAsks name step) : Answers name step ((s.seen name step).map (·.2)) := by
  rcases hstep with rfl | rfl | hne
  · simp only [seen, Session.step, ask, h, if_true, List.map_cons, List.map_nil]
    exact .next _
  · obtain ⟨passed, last, hanswers, hpassed, hlast⟩ := stream.exists_drain (s.fired name)
    simp only [seen, Session.step, ask, h, if_true, List.map_map, Function.comp_def, List.map_id',
      hanswers]
    exact .drain hpassed hlast
  · rw [seen_of_ne s hne]
    exact .other hne

/-- What a stream answers during steps is what it answers to each of them. -/
theorem exists_answers_observe {s : Session} {name : String} {stream : Stream}
    (h : (s.slot name).activity = some (.stream stream)) {steps : List SessionStep}
    (hsteps : ∀ step ∈ steps, OnlyAsks name step) :
    ∃ parts, (s.observe name steps).map (·.2) = parts.flatten ∧
      List.Forall₂ (Answers name) steps parts := by
  induction steps generalizing s stream with
  | nil => exact ⟨[], rfl, .nil⟩
  | cons step more ih =>
    obtain ⟨hstep, hmore⟩ := List.forall_mem_cons.1 hsteps
    -- The stream stays open, whoever the step is about.
    have hopen : ∃ next, ((s.step step).1.slot name).activity = some (.stream next) := by
      by_cases hne : step.slot? = some name
      · obtain ⟨n, -, -, hnext⟩ := seen_eq_pollAll h (by simpa [OnlyAsks, hne] using hstep)
        exact ⟨_, hnext⟩
      · exact ⟨stream, by rw [slot_step_of_ne s hne, h]⟩
    obtain ⟨next, hnext⟩ := hopen
    obtain ⟨parts, hparts, hanswers⟩ := ih hnext hmore
    refine ⟨(s.seen name step).map (·.2) :: parts, ?_, .cons (answers_seen h hstep) hanswers⟩
    rw [observe, List.map_append, hparts, List.flatten_cons]

/-- In a session a stream answers as it does alone. -/
theorem observe_eq_pollAll {s : Session} {name : String} {stream : Stream}
    (h : (s.slot name).activity = some (.stream stream)) {steps : List SessionStep}
    (hsteps : ∀ step ∈ steps, OnlyAsks name step) :
    (s.observe name steps).map (·.2) =
      (pollAll Stream.poll stream ((s.observe name steps).map (·.1))).1 := by
  induction steps generalizing s stream with
  | nil => rfl
  | cons step more ih =>
    obtain ⟨hstep, hmore⟩ := List.forall_mem_cons.1 hsteps
    rw [observe]
    -- A step of another slot may fire the signal, but it leaves the stream as it is.
    by_cases hne : step.slot? = some name
    · obtain ⟨n, hseen, hlen, hnext⟩ := seen_eq_pollAll h
        (by simpa [OnlyAsks, hne] using hstep)
      rw [hseen, List.map_append, List.map_append, List.map_map, List.map_map, ih hnext hmore,
        pollAll_append]
      simp [Function.comp_def, hlen]
    · rw [seen_of_ne s hne, List.nil_append]
      exact ih (by rw [slot_step_of_ne s hne, h]) hmore

/-- All that a stream of octets answers, however its polls are mixed with other calls, aborts and
the clock. Each poll is answered: one that finds the signal fired ends the stream with the reason of
the signal; the others answer with the data that is not empty, in order, up to the first step that
ends the reading, then with the error of that step, or at the end of the body with the failure that
was reported on the head; and after an error or the end it stays finished. -/
theorem observe_bytes {s : Session} {name : String} {view : ByteView} {source : BodySource}
    (hview : (s.slot name).activity = some (.stream (.bytes view)))
    (hsource : view.source = some source) {steps : List SessionStep}
    (hsteps : ∀ step ∈ steps, OnlyAsks name step) :
    let seen := s.observe name steps
    seen.map (·.2) =
        (underSignal (seen.map (·.1))
          (quietAnswers source.steps view.headReport seen.length)).map (Stream.mapPoll .octets) ∧
      (∃ parts, seen.map (·.2) = parts.flatten ∧ List.Forall₂ (Answers name) steps parts) ∧
      ∀ (step : BodyStep) (e : Error), step.ending? = some e ↔ step.EndsWith e := by
  intro seen
  refine ⟨?_, exists_answers_observe hview hsteps, fun step e => BodyStep.ending?_eq_some_iff⟩
  rw [observe_eq_pollAll hview hsteps, Stream.pollAll_bytes, ByteView.pollAll_answers hsource,
    List.length_map]

/-- One stream is aborted while its data is ready; one waits, and ends with the report in its
trailers, which comes before the report on its head; and one ends with the report on its head. -/
theorem observe_bytes_endings :
    let trailers : Headers := ⟨[⟨"x-stream-error", [Utf8.ofString "boom"]⟩]⟩
    let plain : BodySource := ⟨.native, [.frame (.data [1]), .frame (.data [2])], true⟩
    let trailed : BodySource :=
      ⟨.native, [.frame (.data [1]), .pause, .frame (.data []), .frame (.data [2]),
        .frame (.trailers trailers), .frame (.data [3])], true⟩
    let s := (start .standard "" 1).runSteps
      [.loose "a" ⟨plain, some (some 0, none), none, .bytes, none⟩,
        .loose "b" ⟨trailed, none, some "late", .bytes, none⟩,
        .loose "c" ⟨plain, none, some "late", .bytes, none⟩]
    (s.observe "a" [.next "a", .abort 0, .next "a", .next "a"]).map (·.2) =
        [.item (.octets [1]), .failed .aborted, .finished] ∧
      (s.observe "b" [.next "b", .next "b", .drop "a", .next "b", .next "b", .next "b"]).map (·.2) =
        [.item (.octets [1]), .pending, .item (.octets [2]), .failed (.streamTrailer "boom" none),
          .finished] ∧
      (s.observe "c" [.next "c", .next "c", .next "c", .next "c"]).map (·.2) =
        [.item (.octets [1]), .item (.octets [2]), .failed (.streamTrailer "late" none),
          .finished] := by
  intro trailers plain trailed s
  -- Each stream answers as it would alone, under the reasons that it finds in the session.
  have hanswers {name : String} {steps : List SessionStep} {firings : List (Option AbortReason)}
      {quiet : List (Poll (List UInt8))} (source : BodySource) (headReport : Option String)
      (hview : (s.slot name).activity =
        some (.stream (.bytes { source := some source, headReport })))
      (hsteps : ∀ step ∈ steps, OnlyAsks name step)
      (hfirings : (s.observe name steps).map (·.1) = firings)
      (hquiet : underSignal firings (quietAnswers source.steps headReport firings.length) = quiet) :
      (s.observe name steps).map (·.2) = quiet.map (Stream.mapPoll .octets) := by
    have h := (observe_bytes hview rfl hsteps).1
    rwa [hfirings, ← List.length_map (·.1), hfirings, hquiet] at h
  have hfired : (s.observe "a" [.next "a", .abort 0, .next "a", .next "a"]).map (·.1) =
      [none, some .aborted, some .aborted] := by
    simp only [s, plain, trailed, trailers]
    cbv
  have htrailed : underSignal [none, none, none, none, none]
      (quietAnswers trailed.steps (some "late") 5) =
        [.item [1], .pending, .item [2], .failed (.streamTrailer "boom" none), .finished] := by
    decide +kernel
  have hplain : underSignal [none, none, none, none] (quietAnswers plain.steps (some "late") 4) =
      [.item [1], .item [2], .failed (.streamTrailer "late" none), .finished] := by
    decide +kernel
  refine ⟨?_, ?_, ?_⟩
  · refine hanswers plain none rfl ?_ hfired rfl
    simp [OnlyAsks, SessionStep.slot?]
  · refine hanswers trailed (some "late") rfl ?_ ?_ htrailed
    · simp [OnlyAsks, SessionStep.slot?]
    · decide +kernel
  · refine hanswers plain (some "late") rfl ?_ ?_ hplain
    · simp [OnlyAsks]
    · decide +kernel

end Session

end DaemonRpc

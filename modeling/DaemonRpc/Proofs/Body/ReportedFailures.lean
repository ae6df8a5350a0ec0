import DaemonRpc.Call
import DaemonRpc.Proofs.Body.ByteTrace
import DaemonRpc.Proofs.Utf8.Sequence

/-!
# Failures that the daemon reports

A response reports a failure on its head or in trailers of its body. Reading the body to its end,
with no signal that fires and no failure of the body itself, ends with that failure if the first
value of the field is readable and not blank, on the head or in some trailer (`Headers.Reports`),
and ends cleanly if none is (`Response.pollAll_view`). Further values of the field, and values with
octets that are not visible ASCII, are not looked at.

`closing?` says how a body ends that is read under no signal; a poll keeps it or closes so
(`ByteView.poll_none`), and so does a run of polls (`ByteView.pollAll_none`).
-/

namespace DaemonRpc

/-! ## What counts as a report -/

/-- The first value of `x-stream-error` is readable and not blank. -/
def Headers.Reports (fields : Headers) : Prop :=
  ∃ value, (fields.getAll "x-stream-error").head? = some value ∧
    (∀ octet ∈ value, (0x20 ≤ octet ∧ octet ≤ 0x7E) ∨ octet = 0x09) ∧
      ∃ octet ∈ value, octet ≠ 0x20 ∧ octet ≠ 0x09

/-- Of the readable octets only blanks and tabs are blank. -/
theorem isBlank_eq_false_iff {octet : UInt8}
    (h : (0x20 ≤ octet ∧ octet ≤ 0x7E) ∨ octet = 0x09) :
    Text.isBlank (Char.ofNat octet.toNat) = false ↔ octet ≠ 0x20 ∧ octet ≠ 0x09 := by
  have hvisible : (0x20 ≤ octet.toNat ∧ octet.toNat ≤ 0x7E) ∨ octet.toNat = 0x09 := by
    simpa [UInt8.le_iff_toNat_le, ← UInt8.toNat_inj] using h
  have hchar : (Char.ofNat octet.toNat).toNat = octet.toNat :=
    Utf8.toNat_val_ofNat (.inl (by omega))
  simp only [Text.isBlank, hchar, ne_eq, ← UInt8.toNat_inj]
  simp
  omega

theorem Headers.reports_iff {fields : Headers} :
    fields.Reports ↔ ∃ report, streamReport? fields = some report := by
  constructor
  · rintro ⟨value, hfirst, hvisible, octet, hoctet, hblank⟩
    have htext : value.text? =
        some (String.ofList (value.map fun octet => Char.ofNat octet.toNat)) :=
      text?_eq_some_iff.2 ⟨hvisible, String.toList_ofList⟩
    refine ⟨_, streamReport?_eq_some_iff.2 ⟨value, _, hfirst, htext, rfl, ?_⟩⟩
    rw [ne_eq, trim_eq_empty_iff, String.toList_ofList]
    intro hall
    have hthis := hall _ (List.mem_map.2 ⟨octet, hoctet, rfl⟩)
    rw [(isBlank_eq_false_iff (hvisible octet hoctet)).2 hblank] at hthis
    cases hthis
  · rintro ⟨report, hreport⟩
    obtain ⟨value, text, hfirst, htext, rfl, hne⟩ := streamReport?_eq_some_iff.1 hreport
    obtain ⟨hvisible, hdecoded⟩ := text?_eq_some_iff.1 htext
    rw [ne_eq, trim_eq_empty_iff, hdecoded, List.forall_mem_map] at hne
    push Not at hne
    obtain ⟨octet, hoctet, hblank⟩ := hne
    exact ⟨value, hfirst, hvisible, octet, hoctet,
      (isBlank_eq_false_iff (hvisible octet hoctet)).1 (by simpa using hblank)⟩

/-! ## How a body ends -/

namespace BodyStep

/-- What a step reports. -/
def report? : BodyStep → Option String
  | .frame (.trailers fields) => streamReport? fields
  | _ => none

theorem exists_trailers_of_report? {step : BodyStep} {report : String}
    (h : step.report? = some report) : ∃ fields, step = .frame (.trailers fields) := by
  fun_cases report? step with
  | case1 fields => exact ⟨fields, rfl⟩
  | case2 hother => rw [BodyStep.report?] at h <;> simp_all

end BodyStep

/-- How a body ends that does these steps and is read under no signal, if it does not stall. -/
def closing? (headReport : Option String) : List BodyStep → Option Termination
  | [] => some ((headReport.map .ofReport).getD .endedCleanly)
  | .stall :: _ => none
  | .frame (.failure e) :: _ => some (.failed e.message)
  | step :: rest =>
    match step.report? with
    | some report => some (.ofReport report)
    | none => closing? headReport rest

/-- The last answer of a view that closes so. -/
inductive Termination.Answers : Termination → Poll (List UInt8) → Prop
  | report (text : String) (code : Option Int) :
      Answers (.trailerError text code) (.failed (.streamTrailer text code))
  | failure (e : Error) : Answers (.failed e.message) (.failed e)
  | clean : Answers .endedCleanly .finished

theorem Termination.Answers.of_trailerError {text : String} {code : Option Int}
    {answer : Poll (List UInt8)} (h : Answers (.trailerError text code) answer) :
    answer = .failed (.streamTrailer text code) := by
  cases h
  rfl

theorem Termination.Answers.of_report {report : String} {answer : Poll (List UInt8)}
    (h : Answers (.ofReport report) answer) : answer = .failed (streamError report) :=
  h.of_trailerError

/-- The first report in the steps counts, and the one on the head after them. -/
theorem closing?_cases {headReport : Option String} {steps : List BodyStep} {how : Termination}
    (h : closing? headReport steps = some how) (hsource : ∀ text, how ≠ .failed text) :
    how = (((steps.findSome? BodyStep.report?).or headReport).map .ofReport).getD
      .endedCleanly := by
  fun_induction closing? headReport steps with
  | case1 => simpa using h.symm
  | case2 rest => simp at h
  | case3 e rest => exact absurd (Option.some.inj h).symm (hsource _)
  | case4 step rest hstall hfailure report hreport =>
    rw [List.findSome?_cons, hreport]
    exact (Option.some.inj h).symm
  | case5 step rest hstall hfailure hreport ih =>
    rw [List.findSome?_cons, hreport]
    exact ih h

/-- A step that reports nothing and does not end the reading is skipped. -/
theorem closing?_cons {step : BodyStep} (hstall : step ≠ .stall)
    (hfailure : ∀ e, step ≠ .frame (.failure e)) (hreport : step.report? = none)
    (headReport : Option String) (rest : List BodyStep) :
    closing? headReport (step :: rest) = closing? headReport rest := by
  rw [closing?, hreport]
  · exact hstall
  · exact hfailure

/-- What is met next keeps how the body ends, or is the ending. -/
def Reading.Closes (headReport : Option String) (steps : List BodyStep) : Reading → Prop
  | .pending rest | .chunk _ rest =>
    closing? headReport rest = closing? headReport steps ∧
      -- Something is done, unless the body stalls.
      (.stall ∉ steps → .stall ∉ rest ∧ rest.length < steps.length)
  | .report text => closing? headReport steps = some (.ofReport text)
  | .failure e => closing? headReport steps = some (.failed e.message)
  | .finished =>
    closing? headReport steps = some ((headReport.map .ofReport).getD .endedCleanly)

theorem Reading.Closes.cons {headReport : Option String} {step : BodyStep} {rest : List BodyStep}
    {reading : Reading} (h : reading.Closes headReport rest)
    (hskip : closing? headReport (step :: rest) = closing? headReport rest) :
    reading.Closes headReport (step :: rest) := by
  cases reading with
  | pending left | chunk octets left =>
    refine ⟨h.1.trans hskip.symm, fun hstall => ?_⟩
    obtain ⟨hleft, hless⟩ := h.2 fun hmem => hstall (List.mem_cons_of_mem _ hmem)
    exact ⟨hleft, Nat.lt_succ_of_lt hless⟩
  | report text | failure e | finished => exact hskip.trans h

theorem closes_ofSteps (headReport : Option String) (steps : List BodyStep) :
    (Reading.ofSteps steps).Closes headReport steps := by
  fun_induction Reading.ofSteps steps with
  | case1 | case8 => rfl
  | case2 rest | case5 b octets rest =>
    exact ⟨rfl, fun hstall =>
      ⟨fun hmem => hstall (List.mem_cons_of_mem _ hmem), Nat.lt_succ_self _⟩⟩
  | case3 rest => exact ⟨rfl, fun hstall => absurd List.mem_cons_self hstall⟩
  | case4 rest ih => exact ih.cons (closing?_cons (by simp) (by simp) rfl _ _)
  | case6 fields rest text hreport =>
    rw [Reading.Closes, closing?, BodyStep.report?, hreport]
    all_goals simp
  | case7 fields rest hreport ih =>
    have hstep : (BodyStep.frame (.trailers fields)).report? = none := hreport
    exact ih.cons (closing?_cons (by simp) (by simp) hstep _ _)

/-! ## How a view closes -/

namespace ByteView

variable {v w : ByteView} {source : BodySource}

/-- The view waits or has given a chunk, and its body will end as before. -/
structure Continues (v w : ByteView) (source : BodySource) (answer : Poll (List UInt8)) : Prop where
  answer : answer = .pending ∨ ∃ octets, answer = .item octets
  headReport : w.headReport = v.headReport
  termination : w.termination = none
  source : ∃ rest, w.source = some { source with steps := rest } ∧
    closing? v.headReport rest = closing? v.headReport source.steps ∧
      (.stall ∉ source.steps → .stall ∉ rest ∧ rest.length < source.steps.length)

/-- The view has closed as its body ends. -/
structure Closed (w : ByteView) (how : Termination) (answer : Poll (List UInt8)) : Prop where
  answer : how.Answers answer
  source : w.source = none
  termination : w.termination = some how

theorem closed_closeWith (hopen : v.termination = none) {how : Termination}
    {answer : Poll (List UInt8)} (hanswer : how.Answers answer) :
    Closed (v.closeWith how) how answer where
  answer := hanswer
  source := rfl
  termination := by rw [closeWith, hopen]; rfl

theorem closed_closeWithReport (v : ByteView) (hopen : v.termination = none) (text : String) :
    Closed (v.closeWithReport text).2 (.ofReport text) (v.closeWithReport text).1 := by
  rw [closeWithReport_eq]
  exact closed_closeWith hopen (.report _ _)

/-- A poll that meets no signal goes on, or closes the view as its body ends. -/
theorem poll_none (hsource : v.source = some source) (hopen : v.termination = none) :
    Continues v (v.poll none).2 source (v.poll none).1 ∨
      ∃ how, closing? v.headReport source.steps = some how ∧
        Closed (v.poll none).2 how (v.poll none).1 := by
  have hcloses := closes_ofSteps v.headReport source.steps
  simp only [poll, hsource]
  cases hreading : Reading.ofSteps source.steps with
  | pending rest =>
    rw [hreading] at hcloses
    exact .inl ⟨.inl rfl, rfl, hopen, rest, rfl, hcloses⟩
  | chunk octets rest =>
    rw [hreading] at hcloses
    exact .inl ⟨.inr ⟨octets, rfl⟩, rfl, hopen, rest, rfl, hcloses⟩
  | report text =>
    rw [hreading] at hcloses
    exact .inr ⟨.ofReport text, hcloses, v.closed_closeWithReport hopen text⟩
  | failure e =>
    rw [hreading] at hcloses
    exact .inr ⟨.failed e.message, hcloses, closed_closeWith hopen (.failure e)⟩
  | finished =>
    rw [hreading, Reading.Closes] at hcloses
    cases hhead : v.headReport with
    | some text =>
      rw [hhead, Option.map_some, Option.getD_some] at hcloses
      let unreported : ByteView := { v with source := some source, headReport := none }
      exact .inr ⟨.ofReport text, hcloses, unreported.closed_closeWithReport hopen text⟩
    | none =>
      rw [hhead, Option.map_none, Option.getD_none] at hcloses
      exact .inr ⟨.endedCleanly, hcloses, closed_closeWith hopen .clean⟩

/-- What a run of polls that meets no signal has come to. -/
inductive Run (v : ByteView) (source : BodySource) : List (Poll (List UInt8)) → ByteView → Prop
  /-- The view is still open. -/
  | continues {answers : List (Poll (List UInt8))} {w : ByteView}
      (answers_ne : .finished ∉ answers) (open_ : w.termination = none)
      (short : .stall ∉ source.steps → answers.length ≤ source.steps.length) :
      Run v source answers w
  /-- The view has closed, as its body ends. -/
  | closed (shown : List (Poll (List UInt8))) {answer : Poll (List UInt8)} {w : ByteView}
      {how : Termination} (k : Nat) (closing : closing? v.headReport source.steps = some how)
      (closed : w.termination = some how) (answer_of : how.Answers answer)
      (shown_of : ∀ a ∈ shown, a = .pending ∨ ∃ octets, a = .item octets)
      (short : .stall ∉ source.steps → shown.length ≤ source.steps.length) :
      Run v source (shown ++ answer :: List.replicate k .finished) w

theorem pollAll_none (hsource : v.source = some source) (hopen : v.termination = none) (n : Nat) :
    Run v source (pollAll poll v (List.replicate n none)).1
      (pollAll poll v (List.replicate n none)).2 := by
  induction n generalizing v source with
  | zero => exact .continues (by simp [pollAll]) hopen (by simp [pollAll])
  | succ n ih =>
    have hcons : pollAll poll v (List.replicate (n + 1) none) =
        ((v.poll none).1 :: (pollAll poll (v.poll none).2 (List.replicate n none)).1,
          (pollAll poll (v.poll none).2 (List.replicate n none)).2) := rfl
    rw [hcons]
    rcases poll_none hsource hopen with ⟨hanswer, hhead, hterm, rest, hrest, hclosing, hless⟩ |
      ⟨how, hclosing, hclosed⟩
    · -- The first answer comes before those of the rest of the body.
      have hrun := ih hrest hterm
      generalize pollAll poll (v.poll none).2 (List.replicate n none) = run at hrun
      obtain ⟨answers, w⟩ := run
      cases hrun with
      | continues hne hw hshort =>
        refine .continues ?_ hw fun hstall => ?_
        · rcases hanswer with h | ⟨octets, h⟩ <;> simpa [h] using hne
        · obtain ⟨hstall, hlength⟩ := hless hstall
          exact Nat.succ_le_of_lt (Nat.lt_of_le_of_lt (hshort hstall) hlength)
      | @closed shown answer _ how k hc hw hof hshown hshort =>
        rw [hhead] at hc
        refine .closed ((v.poll none).1 :: shown) k (hclosing ▸ hc) hw hof
          (List.forall_mem_cons.2 ⟨hanswer, hshown⟩) fun hstall => ?_
        obtain ⟨hstall, hlength⟩ := hless hstall
        exact Nat.succ_le_of_lt (Nat.lt_of_le_of_lt (hshort hstall) hlength)
    · rw [pollAll_closed hclosed.source, List.length_replicate]
      exact .closed [] n hclosing hclosed.termination hclosed.answer (by simp) (by simp)

end ByteView

/-! ## Responses -/

namespace Response

/-- What the daemon reports: the first report of a trailer, or else that of the head. -/
def report? (r : Response) : Option String :=
  (r.body.steps.findSome? BodyStep.report?).or (streamReport? r.headers)

/-- The head of the response reports a failure, or a trailer of its body does. -/
def Reports (r : Response) : Prop :=
  r.headers.Reports ∨ ∃ fields, .frame (.trailers fields) ∈ r.body.steps ∧ fields.Reports

theorem reports_iff {r : Response} : r.Reports ↔ ∃ report, r.report? = some report := by
  have htrailers : (∃ fields, .frame (.trailers fields) ∈ r.body.steps ∧ fields.Reports) ↔
      (r.body.steps.findSome? BodyStep.report?).isSome := by
    rw [List.findSome?_isSome_iff]
    constructor
    · rintro ⟨fields, hmem, hreports⟩
      obtain ⟨report, hreport⟩ := Headers.reports_iff.1 hreports
      exact ⟨_, hmem, Option.isSome_iff_exists.2 ⟨report, hreport⟩⟩
    · rintro ⟨step, hmem, hreport⟩
      obtain ⟨report, hreport⟩ := Option.isSome_iff_exists.1 hreport
      obtain ⟨fields, rfl⟩ := step.exists_trailers_of_report? hreport
      exact ⟨fields, hmem, Headers.reports_iff.2 ⟨report, hreport⟩⟩
  rw [Reports, htrailers, Headers.reports_iff, ← Option.isSome_iff_exists,
    ← Option.isSome_iff_exists, report?, Option.isSome_or, Bool.or_eq_true, or_comm]

/-- Read to its end without a signal and without a failure of its body, a response ends with the
failure that the daemon reports, and cleanly if it reports none. The end is reached if the body does
not stall. -/
theorem pollAll_view (r : Response) (n : Nat) :
    let run := pollAll ByteView.poll r.view (List.replicate n none)
    (.stall ∉ r.body.steps → r.body.steps.length + 2 ≤ n → .finished ∈ run.1) ∧
      (.finished ∈ run.1 → (∀ text, run.2.termination ≠ some (.failed text)) →
        (r.Reports → ∃ report, r.report? = some report ∧
          .failed (streamError report) ∈ run.1 ∧
            run.2.termination =
              some (.trailerError (streamMessage report).1 (streamMessage report).2)) ∧
        (¬ r.Reports → (∀ e, .failed e ∉ run.1) ∧ run.2.termination = some .endedCleanly)) := by
  have hrun : ByteView.Run r.view r.body _ _ := ByteView.pollAll_none rfl rfl n
  have hlength := length_pollAll ByteView.poll r.view (List.replicate n none)
  rw [List.length_replicate] at hlength
  generalize pollAll ByteView.poll r.view (List.replicate n none) = run at hrun hlength
  obtain ⟨answers, w⟩ := run
  dsimp only at hrun hlength ⊢
  cases hrun with
  | continues hgoes hopen hshort =>
    refine ⟨fun hstall hn => ?_, fun hfinished => absurd hfinished hgoes⟩
    have := hshort hstall
    omega
  | @closed shown answer _ how k hclosing hclosed hanswer hshown hshort =>
    simp only [List.length_append, List.length_cons, List.length_replicate] at hlength
    refine ⟨fun hstall hn => ?_, fun _ hsource => ?_⟩
    · have := hshort hstall
      simp [show k ≠ 0 by omega]
    have hhow := closing?_cases hclosing fun text htext =>
      hsource text (hclosed.trans (htext ▸ rfl))
    change how = (r.report?.map _).getD _ at hhow
    constructor
    · intro hreports
      obtain ⟨report, hreport⟩ := reports_iff.1 hreports
      rw [hreport, Option.map_some, Option.getD_some] at hhow
      rw [hhow] at hanswer hclosed
      exact ⟨report, hreport, by simp [hanswer.of_report], hclosed⟩
    · intro hquiet
      have hnone : r.report? = none := Option.eq_none_iff_forall_ne_some.2 fun report hreport =>
        hquiet (reports_iff.2 ⟨report, hreport⟩)
      rw [hnone, Option.map_none, Option.getD_none] at hhow
      subst hhow
      cases hanswer
      refine ⟨fun e hmem => ?_, hclosed⟩
      rcases List.mem_append.1 hmem with hmem | hmem
      · rcases hshown _ hmem with h | ⟨octets, h⟩ <;> cases h
      · simp at hmem

/-- A response whose body is some data and a trailer with these values of `x-stream-error`. -/
def ofReports (values : List HeaderValue) : Response where
  status := 200
  headers := {}
  url := { scheme := ['u'], path := .segments [] }
  body := ⟨.native, [.frame (.data [7]), .frame (.trailers ⟨[⟨"x-stream-error", values⟩]⟩)], true⟩
  transform := none

/-- A report in the trailers of a body fails the reading, after the data. -/
theorem failed_of_reported :
    let r := ofReports [Utf8.ofString "boom"]
    let run := pollAll ByteView.poll r.view (List.replicate 4 none)
    r.Reports ∧ .finished ∈ run.1 ∧
      (∃ report, r.report? = some report ∧ .failed (streamError report) ∈ run.1) ∧
        run.2.termination = some (.trailerError "boom" none) := by
  intro r run
  have hreports : r.Reports := reports_iff.2 ⟨"boom", by decide⟩
  have hlaw := pollAll_view r 4
  have hfinished : .finished ∈ run.1 := hlaw.1 (by decide) (by decide)
  have hterm : run.2.termination = some (.trailerError "boom" none) := by decide
  have hsource : ∀ text, run.2.termination ≠ some (.failed text) := by
    rw [hterm]
    simp
  obtain ⟨report, hreport, hfailed, -⟩ := (hlaw.2 hfinished hsource).1 hreports
  exact ⟨hreports, hfinished, ⟨report, hreport, hfailed⟩, hterm⟩

/-- A value behind a blank one is dropped, and so is a value that is not ASCII: the reading ends
cleanly. -/
theorem finished_of_dropped :
    let run := fun values : List HeaderValue =>
      pollAll ByteView.poll (ofReports values).view (List.replicate 3 none)
    let repeated := run [[], Utf8.ofString "boom"]
    let encoded := run [Utf8.ofString "é"]
    (repeated.1 = [.item [7], .finished, .finished] ∧
        repeated.2.termination = some .endedCleanly) ∧
      encoded.1 = [.item [7], .finished, .finished] ∧
        encoded.2.termination = some .endedCleanly := by
  decide

end Response

end DaemonRpc

import DaemonRpc.Body.ByteView
import DaemonRpc.Proofs.Body.Line

/-!
# The answers of an octet view

What polling an octet view answers, as a function of what its body will do, of the report on the
head, and of the reason with which the signal has fired at each poll:

* `quietAnswers` are the answers if the signal never fires: the data that is not empty up to the
  step that ends the reading, a wait for each pause between, the ending, and nothing more;
* `underSignal` cuts them off at the first poll that finds the signal fired.

`pollAll_byteView` says that the view answers exactly so.
-/

namespace DaemonRpc

/-- Poll again and again, given with what reason the signal has fired at each poll. -/
def pollAll {σ α : Type} (poll : σ → Option AbortReason → Poll α × σ) (s : σ) :
    List (Option AbortReason) → List (Poll α) × σ
  | [] => ([], s)
  | fired :: more =>
    let (answer, t) := poll s fired
    let (answers, last) := pollAll poll t more
    (answer :: answers, last)

/-- Two runs of polls, one after the other. -/
theorem pollAll_append {σ α : Type} (poll : σ → Option AbortReason → Poll α × σ) (s : σ)
    (a b : List (Option AbortReason)) :
    pollAll poll s (a ++ b) =
      ((pollAll poll s a).1 ++ (pollAll poll (pollAll poll s a).2 b).1,
        (pollAll poll (pollAll poll s a).2 b).2) := by
  induction a generalizing s with
  | nil => rfl
  | cons fired more ih => simp only [List.cons_append, pollAll, ih]

theorem length_pollAll {σ α : Type} (poll : σ → Option AbortReason → Poll α × σ) (s : σ)
    (firings : List (Option AbortReason)) : (pollAll poll s firings).1.length = firings.length := by
  induction firings generalizing s with
  | nil => rfl
  | cons fired more ih => exact congrArg (· + 1) (ih _)

/-! ## What a body answers by itself -/

namespace BodyStep

/-- How a poll is answered that meets the step; none if the reading goes on at once. -/
def answer? : BodyStep → Option (Poll (List UInt8))
  | .frame (.data octets) => if octets = [] then none else some (.item octets)
  | .pause => some .pending
  | _ => none

/-- The error with which the step ends the reading, if it does. -/
def ending? : BodyStep → Option Error
  | .frame (.trailers fields) => (streamReport? fields).map streamError
  | .frame (.failure e) => some e
  | _ => none

/-- Nothing after the step is read. -/
def isLast (step : BodyStep) : Bool := step = .stall || step.ending?.isSome

/-- The step ends the reading with an error: it is a failure of the body, or it is a trailer whose
first value of `x-stream-error` is readable and not blank. -/
inductive EndsWith : BodyStep → Error → Prop where
  | failure (e : Error) : EndsWith (.frame (.failure e)) e
  | report {fields : Headers} {value : HeaderValue} {text : String}
      (first : (fields.getAll "x-stream-error").head? = some value)
      (readable : ∀ octet ∈ value, (0x20 ≤ octet ∧ octet ≤ 0x7E) ∨ octet = 0x09)
      (decoded : text.toList = value.map fun octet => Char.ofNat octet.toNat)
      (not_blank : ∃ c ∈ text.toList, Text.isBlank c = false) :
      EndsWith (.frame (.trailers fields)) (streamError text)

end BodyStep

/-- A report of the daemon ends the reading of a body so. -/
def Termination.ofReport (report : String) : Termination :=
  .trailerError (streamMessage report).1 (streamMessage report).2

/-- How a body ends after the steps that are read before: with an error or not, or never. -/
def closingAnswers (headReport : Option String) :
    List BodyStep → List (Poll (List UInt8)) × Poll (List UInt8)
  | [] => ((headReport.map fun text => .failed (streamError text)).toList, .finished)
  | step :: _ =>
    match step.ending? with
    | some e => ([.failed e], .finished)
    | none => ([], .pending)

/-- The answers to so many polls of a body if no signal fires. -/
def quietAnswers (steps : List BodyStep) (headReport : Option String) (n : Nat) :
    List (Poll (List UInt8)) :=
  let shown := (steps.takeWhile (!·.isLast)).filterMap BodyStep.answer?
  let (closing, after) := closingAnswers headReport (steps.dropWhile (!·.isLast))
  (shown ++ closing ++ List.replicate n after).take n

/-- The answers under a signal: the first poll that finds the signal fired fails with the reason,
unless the reading has ended before, and nothing comes after it. -/
def underSignal : List (Option AbortReason) → List (Poll (List UInt8)) → List (Poll (List UInt8))
  | some .aborted :: more, _ :: _ => .failed .aborted :: List.replicate more.length .finished
  | some .timedOut :: more, _ :: _ =>
    .failed (.timedOut none) :: List.replicate more.length .finished
  | none :: more, .item octets :: quiet => .item octets :: underSignal more quiet
  | none :: more, .pending :: quiet => .pending :: underSignal more quiet
  | none :: _, answer :: quiet => answer :: quiet
  | _, _ => []

/-! ## Trailers that report a failure -/

theorem trim_trim (text : String) : Text.trim (Text.trim text) = Text.trim text := by
  -- A trimmed text is its own core.
  have h : IsTrimmed (Text.trimChars text.toList) (Text.trimChars text.toList) := by
    obtain ⟨-, hh, hl⟩ := isTrimmed_iff.2 (rfl : Text.trimChars text.toList = _)
    exact ⟨⟨[], [], by simp, by simp, by simp⟩, hh, hl⟩
  rw [Text.trim, Text.trim, String.toList_ofList, isTrimmed_iff.1 h]

/-- Blanks around a report do not count. -/
theorem streamError_trim (text : String) : streamError (Text.trim text) = streamError text := by
  simp only [streamError, streamMessage, trim_trim]

/-- Nothing is left of a text exactly if it is blank. -/
theorem trim_eq_empty_iff (text : String) :
    Text.trim text = "" ↔ ∀ c ∈ text.toList, Text.isBlank c = true := by
  have hempty : Text.trim text = "" ↔ Text.trimChars text.toList = [] := by
    rw [Text.trim, ← String.toList_inj, String.toList_ofList]
    rfl
  rw [hempty, ← isTrimmed_iff]
  constructor
  · rintro ⟨⟨before, after, htext, hb, ha⟩, -, -⟩ c hc
    rw [htext, List.append_nil] at hc
    exact (List.mem_append.1 hc).elim (hb c) (ha c)
  · intro h
    exact ⟨⟨text.toList, [], by simp, h, by simp⟩, by simp, by simp⟩

/-- A report is the text of the first value without the blanks around it. -/
theorem streamReport?_eq_some_iff {fields : Headers} {report : String} :
    streamReport? fields = some report ↔ ∃ value text,
      (fields.getAll streamErrorName).head? = some value ∧ value.text? = some text ∧
        Text.trim text = report ∧ report ≠ "" := by
  simp only [streamReport?, Headers.get?, Option.filter_eq_some_iff, Option.map_eq_some_iff,
    Option.bind_eq_some_iff, decide_eq_true_eq]
  constructor
  · rintro ⟨⟨text, ⟨value, hvalue, htext⟩, htrim⟩, hne⟩
    exact ⟨value, text, hvalue, htext, htrim, hne⟩
  · rintro ⟨value, text, hvalue, htext, htrim, hne⟩
    exact ⟨⟨text, ⟨value, hvalue, htext⟩, htrim⟩, hne⟩

/-- A value is readable if all its octets are visible ASCII, blanks or tabs. -/
theorem text?_eq_some_iff {value : HeaderValue} {text : String} :
    value.text? = some text ↔ (∀ octet ∈ value, (0x20 ≤ octet ∧ octet ≤ 0x7E) ∨ octet = 0x09) ∧
      text.toList = value.map fun octet => Char.ofNat octet.toNat := by
  have hall : value.all HeaderValue.isVisible = true ↔
      ∀ octet ∈ value, (0x20 ≤ octet ∧ octet ≤ 0x7E) ∨ octet = 0x09 := by
    simp [List.all_eq_true, HeaderValue.isVisible]
  rw [HeaderValue.text?, ← hall]
  split
  · next hvisible =>
    rw [Option.some.injEq, ← String.toList_inj, String.toList_ofList, eq_comm]
    simp [hvisible]
  · next hvisible => simp [hvisible]

/-- Which steps end the reading with which error. -/
theorem BodyStep.ending?_eq_some_iff {step : BodyStep} {e : Error} :
    step.ending? = some e ↔ step.EndsWith e := by
  constructor
  · intro h
    match step with
    | .frame (.failure _) =>
      obtain rfl := Option.some.inj h
      exact .failure _
    | .frame (.trailers fields) =>
      obtain ⟨report, hreport, rfl⟩ := Option.map_eq_some_iff.1 h
      obtain ⟨value, text, hvalue, htext, rfl, hne⟩ := streamReport?_eq_some_iff.1 hreport
      obtain ⟨hread, hdecoded⟩ := text?_eq_some_iff.1 htext
      -- The report is trimmed twice, on the way in and in its error.
      rw [streamError_trim]
      refine .report hvalue hread hdecoded ?_
      simpa [trim_eq_empty_iff] using hne
    | .frame (.data _) | .pause | .stall => simp [ending?] at h
  · rintro (_ | ⟨hvalue, hread, hdecoded, hblank⟩)
    · rfl
    · next fields value text =>
      have htext := text?_eq_some_iff.2 ⟨hread, hdecoded⟩
      have hne : Text.trim text ≠ "" := by simpa [trim_eq_empty_iff] using hblank
      simp only [ending?, streamReport?_eq_some_iff.2 ⟨value, text, hvalue, htext, rfl, hne⟩,
        Option.map_some, streamError_trim]

/-! ## The answers by themselves, poll by poll -/

namespace BodyStep

theorem isLast_of_ending? {step : BodyStep} {e : Error} (h : step.ending? = some e) :
    step.isLast = true := by
  simp [isLast, h]

/-- A step that answers a poll is not the last. -/
theorem isLast_of_answer? {step : BodyStep} {answer : Poll (List UInt8)}
    (h : step.answer? = some answer) : step.isLast = false := by
  match step with
  | .frame (.data _) | .pause => rfl
  | .frame (.trailers _) | .frame (.failure _) | .stall => simp [answer?] at h

end BodyStep

theorem take_append_replicate_succ {α : Type} (l : List α) (a : α) (n : Nat) :
    (l ++ List.replicate (n + 1) a).take n = (l ++ List.replicate n a).take n := by
  rw [List.replicate_succ', ← List.append_assoc, List.take_append_of_le_length (by simp)]

/-- A step that answers a poll comes before the answers of the rest. -/
theorem quietAnswers_cons_of_answer? {step : BodyStep} {answer : Poll (List UInt8)}
    (h : step.answer? = some answer) (rest : List BodyStep) (headReport : Option String) (n : Nat) :
    quietAnswers (step :: rest) headReport (n + 1) = answer :: quietAnswers rest headReport n := by
  simp only [quietAnswers, List.takeWhile_cons, List.dropWhile_cons, BodyStep.isLast_of_answer? h,
    Bool.not_false, if_true, List.filterMap_cons, h, List.cons_append, List.take_succ_cons]
  rw [take_append_replicate_succ]

/-- A step that answers no poll and is not the last makes no difference. -/
theorem quietAnswers_cons_of_skipped {step : BodyStep} (h : step.answer? = none)
    (hlast : step.isLast = false) (rest : List BodyStep) (headReport : Option String) (n : Nat) :
    quietAnswers (step :: rest) headReport n = quietAnswers rest headReport n := by
  simp only [quietAnswers, List.takeWhile_cons, List.dropWhile_cons, hlast, Bool.not_false,
    if_true, List.filterMap_cons, h]

/-- A step that ends the reading is answered by its error. -/
theorem quietAnswers_cons_of_ending? {step : BodyStep} {e : Error} (h : step.ending? = some e)
    (rest : List BodyStep) (headReport : Option String) (n : Nat) :
    quietAnswers (step :: rest) headReport (n + 1) =
      .failed e :: List.replicate n .finished := by
  simp [quietAnswers, closingAnswers, BodyStep.isLast_of_ending? h, h]

theorem quietAnswers_stall (rest : List BodyStep) (headReport : Option String) (n : Nat) :
    quietAnswers (.stall :: rest) headReport n = List.replicate n .pending := by
  simp [quietAnswers, closingAnswers, BodyStep.isLast, BodyStep.ending?]

theorem length_quietAnswers (steps : List BodyStep) (headReport : Option String) (n : Nat) :
    (quietAnswers steps headReport n).length = n := by
  simp only [quietAnswers, List.length_take, List.length_append, List.length_replicate]
  omega

/-- A signal that has fired ends the reading with its reason. -/
theorem underSignal_cons_some (reason : AbortReason) (more : List (Option AbortReason))
    (answer : Poll (List UInt8)) (quiet : List (Poll (List UInt8))) :
    underSignal (some reason :: more) (answer :: quiet) =
      .failed reason.error :: List.replicate more.length .finished := by
  cases reason <;> rfl

/-- The answers to the first poll and to the later ones, by what the view meets next. -/
theorem quietAnswers_succ (steps : List BodyStep) (headReport : Option String) (n : Nat) :
    quietAnswers steps headReport (n + 1) =
      match Reading.ofSteps steps with
      | .pending rest => .pending :: quietAnswers rest headReport n
      | .chunk octets rest => .item octets :: quietAnswers rest headReport n
      | .report text => .failed (streamError text) :: List.replicate n .finished
      | .failure e => .failed e :: List.replicate n .finished
      | .finished =>
        match headReport with
        | some text => .failed (streamError text) :: List.replicate n .finished
        | none => .finished :: List.replicate n .finished := by
  -- By what is skipped: empty data and trailers without a report answer no poll.
  fun_induction Reading.ofSteps steps with
  | case1 =>
    cases headReport with
    | some text => simp [quietAnswers, closingAnswers]
    | none => simp [quietAnswers, closingAnswers, List.replicate_succ]
  | case2 rest => exact quietAnswers_cons_of_answer? rfl rest headReport n
  | case3 rest => simp only [quietAnswers_stall, List.replicate_succ]
  | case4 rest ih => rw [quietAnswers_cons_of_skipped rfl rfl, ih]
  | case5 b octets rest => exact quietAnswers_cons_of_answer? rfl rest headReport n
  | case6 fields rest text h =>
    exact quietAnswers_cons_of_ending? (by simp [BodyStep.ending?, h]) rest headReport n
  | case7 fields rest h ih =>
    rw [quietAnswers_cons_of_skipped rfl (by simp [BodyStep.isLast, BodyStep.ending?, h]), ih]
  | case8 e rest => exact quietAnswers_cons_of_ending? rfl rest headReport n

/-! ## The view answers so -/

namespace ByteView

/-- A report closes a view with its error. -/
theorem closeWithReport_eq (v : ByteView) (text : String) :
    v.closeWithReport text = (.failed (streamError text), v.closeWith (.ofReport text)) := by
  simp only [closeWithReport, streamError, Termination.ofReport]

/-- A view without its body is finished and stays as it is, whatever the signal does. -/
theorem pollAll_closed {v : ByteView} (h : v.source = none) (firings : List (Option AbortReason)) :
    pollAll poll v firings = (List.replicate firings.length .finished, v) := by
  induction firings with
  | nil => rfl
  | cons fired more ih =>
    have hpoll : v.poll fired = (.finished, v) := by simp [poll, h]
    simp [pollAll, hpoll, ih, List.replicate_succ]

theorem pollAll_closeWith (v : ByteView) (how : Termination)
    (firings : List (Option AbortReason)) :
    (pollAll poll (v.closeWith how) firings).1 = List.replicate firings.length .finished :=
  congrArg Prod.fst (pollAll_closed rfl firings)

/-- The answers of a view that has its body. -/
theorem pollAll_answers {v : ByteView} {source : BodySource} (h : v.source = some source)
    (firings : List (Option AbortReason)) :
    (pollAll poll v firings).1 =
      underSignal firings (quietAnswers source.steps v.headReport firings.length) := by
  induction firings generalizing v source with
  | nil => rfl
  | cons fired more ih =>
    -- The signal is looked at first; only then do the steps of the body count.
    cases fired with
    | some reason =>
      obtain ⟨answer, quiet, hquiet⟩ := List.exists_cons_of_length_eq_add_one
        (length_quietAnswers source.steps v.headReport (more.length + 1))
      simp only [pollAll, poll, h, pollAll_closeWith, List.length_cons, hquiet,
        underSignal_cons_some]
    | none =>
      rw [List.length_cons, quietAnswers_succ]
      simp only [pollAll, poll, h]
      cases Reading.ofSteps source.steps with
      | pending rest | chunk octets rest =>
        simp only [underSignal]
        rw [ih rfl]
      | report text =>
        simp only [closeWithReport, pollAll_closeWith, underSignal]
        rfl
      | failure e => simp only [pollAll_closeWith, underSignal]
      | finished =>
        cases v.headReport with
        | some text =>
          simp only [closeWithReport, pollAll_closeWith, underSignal]
          rfl
        | none => simp only [pollAll_closeWith, underSignal]

end ByteView

end DaemonRpc

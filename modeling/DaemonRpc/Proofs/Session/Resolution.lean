import DaemonRpc.Proofs.Session.Firing
import DaemonRpc.Proofs.Session.Verdict

/-!
# How a call in a session ends

In a session a call is started, and polled from time to time while other calls go on, controllers
are aborted and the clock moves. Its request is handed to the transport once, or not at all if its
signal has fired at its start; and it ends with the verdict of its request, or with the reason of
its signal if that fires before (`Session.resolution_call`).
-/

namespace DaemonRpc

/-! ## Requests -/

/-- The request carries what it was specified with; it is identified if it was not. -/
structure Outgoing.Carries (request : Outgoing) (spec : RequestSpec) (requestId : String) :
    Prop where
  method : request.method = spec.method
  url : request.url = spec.url
  body : request.body = spec.body
  /-- The other fields stay as they are, in their order. -/
  fields : request.headers.fields.filter (·.name ≠ requestIdName) =
    spec.headers.fields.filter (·.name ≠ requestIdName)
  kept : spec.headers.contains requestIdName = true → request.headers = spec.headers
  identified : spec.headers.contains requestIdName = false →
    request.headers.getAll requestIdName = [Utf8.ofString requestId]

/-- Putting values under a name leaves all other fields as they are. -/
theorem Headers.filter_putField (name : String) (values : List HeaderValue)
    (fields : List HeaderField) :
    (putField name values fields).filter (·.name ≠ name) = fields.filter (·.name ≠ name) := by
  induction fields with
  | nil => simp [putField]
  | cons f rest ih =>
    by_cases hf : f.name = name
    · simp [putField, hf]
    · simpa [putField, hf] using ih

theorem RequestSpec.carries_outgoing (spec : RequestSpec) (requestId : String) :
    (spec.outgoing requestId).Carries spec requestId where
  method := rfl
  url := rfl
  body := rfl
  fields := by
    rw [outgoing]
    split
    · rfl
    · exact Headers.filter_putField requestIdName _ spec.headers.fields
  kept h := by rw [outgoing, if_pos h]
  identified h := by
    rw [outgoing, if_neg (by simp [h])]
    exact (Headers.getAll_put ..).trans (if_pos rfl)

/-- A request is handed to the transport unless the signal of its call has fired before. -/
theorem Call.handed_start (fired : Option AbortReason) (spec : RequestSpec) (requestId : String)
    (transport : Transport) :
    (start fired spec requestId transport).handed =
      if fired.isSome then none else some (spec.outgoing requestId) := by
  cases fired <;> rfl

/-! ## What is seen of a call -/

/-- What a call without a goal of its own has come to. -/
def Outcome.result? : Outcome → Option (Except Error Response)
  | .failed e => some (.error e)
  | .answered r => some (.ok r)
  | .pending | .opened _ | .done _ => none

/-- The step polls the slot. -/
def SessionStep.polls (name : String) : SessionStep → Bool
  | .poll other => other = name
  | _ => false

/-- With what reason the signal has fired at each poll of the slot. -/
def Watch.firings (name : String) : Watch → List SessionStep → List (Option AbortReason)
  | _, [] => []
  | w, step :: more =>
    (if step.polls name then [w.reason] else []) ++ (w.look step).firings name more

namespace Session

/-- What the call in a slot comes to in a step. -/
def result? (name : String) (s : Session) (step : SessionStep) :
    Option (Except Error Response) :=
  match (s.step step).2.1 with
  | .outcome outcome => if step.slot? = some name then outcome.result? else none
  | _ => none

/-- The first that the call in a slot comes to during steps. -/
def resolution? (name : String) : Session → List SessionStep → Option (Except Error Response)
  | _, [] => none
  | s, step :: more => (s.result? name step).or (resolution? name (s.step step).1 more)

/-- What a step hands to the transport for a call in the slot. -/
def handed? (name : String) (s : Session) : SessionStep → Option Outgoing
  | .call other resource options goal transport =>
    if other = name then (s.call other resource options goal transport).2.2 else none
  | .command other command options transport =>
    if other = name then
      (s.call other (.ok (.path command.path))
        { command.options options with method := some "POST" } command.goal transport).2.2
    else none
  | _ => none

/-- The step polls the slot, or it is about something else. -/
def OnlyPolls (name : String) (step : SessionStep) : Prop :=
  step = .poll name ∨ step.slot? ≠ some name

variable {s : Session} {name : String}

/-- A step that is about something else shows nothing of the call. -/
theorem result?_of_ne {step : SessionStep} (h : step.slot? ≠ some name) :
    s.result? name step = none := by
  rw [result?]
  split
  · exact if_neg h
  · rfl

theorem handed?_of_onlyPolls {step : SessionStep} (h : OnlyPolls name step) :
    s.handed? name step = none := by
  rcases h with rfl | h
  · rfl
  · cases step <;> simp_all [handed?, SessionStep.slot?]

theorem history_handed?_of_onlyPolls {steps : List SessionStep}
    (h : ∀ step ∈ steps, OnlyPolls name step) : history (handed? name) s steps = [] := by
  induction steps generalizing s with
  | nil => rfl
  | cons step more ih =>
    obtain ⟨hstep, hmore⟩ := List.forall_mem_cons.1 h
    rw [history, handed?_of_onlyPolls hstep, ih hmore]
    rfl

/-! ## A call among others -/

/-- By a step the call in a slot has come so far. -/
structure ComesTo (name : String) (s : Session) (step : SessionStep) (progress : CallProgress) :
    Prop where
  result? : s.result? name step = progress.run []
  next : ∀ call, progress = .pending call →
    ((s.step step).1.slot name).activity = some (.calling call .response)

theorem result?_ofProgress (fired : Option AbortReason) (progress : CallProgress) (released : Nat) :
    ((Turn.ofProgress fired .response progress).andReleased released).outcome.result? =
      progress.run [] := by
  cases progress <;> rfl

theorem next_ofProgress {progress : CallProgress} {call : Call} (h : progress = .pending call)
    (fired : Option AbortReason) (released : Nat) :
    ((Turn.ofProgress fired .response progress).andReleased released).next =
      some (.calling call .response) := by
  rw [h]
  rfl

/-- A call that waits comes as far as a poll under its signal. -/
theorem comesTo_poll {call : Call} (h : (s.slot name).activity = some (.calling call .response)) :
    ComesTo name s (.poll name) (call.poll (s.fired name)).1 where
  result? := by
    rw [Session.result?]
    simp only [step, h, take, SessionStep.slot?, if_true]
    exact result?_ofProgress _ _ _
  next next hnext := by
    simp only [step, h, slot_take_self]
    exact next_ofProgress hnext _ _

/-- A request that is executed comes as far as its start. -/
theorem comesTo_call (s : Session) (name : String) (spec : RequestSpec) (options : RequestOptions)
    (transport : Transport) :
    ComesTo name s (.call name (.ok (.prebuilt spec)) options .response transport)
      (Call.start (((s.renew name).compose name spec.signal spec.timeout).fired name) spec
        s.requestId transport).progress where
  result? := by
    rw [Session.result?]
    exact (if_pos rfl).trans (result?_ofProgress _ _ _)
  next call hnext := (slot_take_self _ _ _).trans (next_ofProgress hnext _ _)

/-- What a call comes to is what it has come to, or what it comes to later. -/
theorem ComesTo.resolution? {step : SessionStep} {progress : CallProgress}
    (h : ComesTo name s step progress) {more : List SessionStep}
    {firings : List (Option AbortReason)}
    (hmore : ∀ call, progress = .pending call →
      (s.step step).1.resolution? name more = (CallProgress.pending call).run firings) :
    s.resolution? name (step :: more) = progress.run firings := by
  rw [Session.resolution?, h.result?]
  cases progress with
  | pending call => exact (Option.none_or ..).trans (hmore call rfl)
  | failed e | answered r => simp only [CallProgress.run, Option.some_or]

/-- In a session a call comes to what it comes to alone, under the signal that its watch shows. -/
theorem resolution?_calling {n : Nat} {w : Watch} (hfollows : w.Follows n s name) {call : Call}
    (hactivity : (s.slot name).activity = some (.calling call .response))
    {more : List SessionStep} (hmore : ∀ step ∈ more, OnlyPolls name step) :
    s.resolution? name more = (CallProgress.pending call).run (w.firings name more) := by
  induction more generalizing s w call with
  | nil => rfl
  | cons step more ih =>
    obtain ⟨hstep, hrest⟩ := List.forall_mem_cons.1 hmore
    have hlive : s.isLive (s.key name) = true := by
      rw [isLive_key, hactivity]
      rfl
    rcases hstep with rfl | hne
    · have hkey : (s.step (.poll name)).1.key name = s.key name := by
        simp [key, step, hactivity, take]
      have hfirings : w.firings name (.poll name :: more) = w.reason :: w.firings name more := by
        simp [Watch.firings, SessionStep.polls, Watch.look]
      rw [hfirings, CallProgress.run, ← hfollows.reason]
      have hcomes := comesTo_poll hactivity
      exact hcomes.resolution? fun next hnext =>
        ih (hfollows.step hlive hkey) (hcomes.next next hnext) hrest
    · -- The step may fire the signal, but it leaves the call as it is.
      have hslot := slot_step_of_ne s hne
      have hkey : (s.step step).1.key name = s.key name := by rw [key, hslot]; rfl
      have hpolls : step.polls name = false := by
        cases step <;> simp_all [SessionStep.polls, SessionStep.slot?]
      rw [Session.resolution?, result?_of_ne hne, Option.none_or, Watch.firings, hpolls]
      exact ih (hfollows.step hlive hkey) (hslot ▸ hactivity) hrest

/-- A request that is executed is handed to the transport unless its signal has fired. -/
theorem handed?_call (s : Session) (name : String) (spec : RequestSpec) (options : RequestOptions)
    (transport : Transport) :
    s.handed? name (.call name (.ok (.prebuilt spec)) options .response transport) =
      if (((s.renew name).compose name spec.signal spec.timeout).fired name).isSome then none
      else some (spec.outgoing s.requestId) :=
  (if_pos rfl).trans (Call.handed_start _ spec s.requestId transport)

/-- A request is executed after any steps of a session, and polled among any others. If its
controller was aborted before, nothing is handed to the transport; otherwise one request is, which
carries what was specified, and never another. The call comes to the verdict that the reply of the
transport means for the request, unless its controller is aborted or its timeout has passed by the
poll of the verdict: then it fails with that reason. -/
theorem resolution_call (config : ClientConfig) (requestId : String) (n : Nat)
    (before : List SessionStep) (name : String) (spec : RequestSpec) (options : RequestOptions)
    (transport : Transport) {more : List SessionStep} (hmore : ∀ step ∈ more, OnlyPolls name step) :
    let s := (start config requestId n).runSteps before
    let steps := .call name (.ok (.prebuilt spec)) options .response transport :: more
    let watch := spec.watch n before
    s.resolution? name steps =
        resolve (spec.verdict? (transport.reply (spec.outgoing s.requestId)))
          (watch.reason :: watch.firings name more) ∧
      (watch.reason.isSome = true → history (handed? name) s steps = []) ∧
      (watch.reason = none → ∃ request, history (handed? name) s steps = [request] ∧
        request.Carries spec s.requestId) := by
  intro s steps watch
  have haudited := (audited_start config requestId n).runSteps before
  simp only [Bool.false_or] at haudited
  -- At its start the call finds the reason that the watch of its request shows.
  have hreason := haudited.fired_dispatched name spec
  have hcomes := comesTo_call s name spec options transport
  have hhanded := handed?_call s name spec options transport
  rw [hreason] at hcomes hhanded
  refine ⟨?_, fun hfired => ?_, fun hfired => ?_⟩
  · rw [← Call.run_start watch.reason spec s.requestId transport]
    refine hcomes.resolution? fun call hcall => ?_
    exact resolution?_calling (haudited.follows_call name .response transport rfl)
      (hcomes.next call hcall) hmore
  · -- Polls hand nothing over, so that only the start of the call counts.
    rw [history, hhanded, if_pos hfired, history_handed?_of_onlyPolls hmore]
    rfl
  · refine ⟨spec.outgoing s.requestId, ?_, spec.carries_outgoing s.requestId⟩
    rw [history, hhanded, if_neg (Option.not_isSome_iff_eq_none.2 hfired),
      history_handed?_of_onlyPolls hmore]
    rfl

/-- A call is aborted while the body of its refused answer is read, in which another slot is
dropped. The transport answers before the body of the request fails, of which the call takes no
notice. -/
theorem resolution_call_aborted :
    let spec : RequestSpec :=
      { method := "POST", url := { scheme := ['u'], path := .segments [] }, headers := {}
        body := .stream [.ok [120], .error (.timedOut none)], timeout := none, signal := some 0
        transform := none, hook := none, throwHttpErrors := true }
    let body : BodySource := ⟨.native, [.frame (.data [98]), .pause, .frame (.data [111])], true⟩
    let transport : Transport := ⟨fun _ => ⟨1, .ok (500, {}, none, body)⟩, fun _ => true⟩
    let s := (start .standard "id" 1).runSteps []
    let steps : List SessionStep :=
      [.call "a" (.ok (.prebuilt spec)) {} .response transport, .poll "a", .drop "b", .abort 0,
        .poll "a"]
    s.resolution? "a" steps = some (.error .aborted) ∧
      ∃ request, history (handed? "a") s steps = [request] ∧ request.Carries spec s.requestId := by
  intro spec body transport s steps
  have hmore : ∀ step ∈ [.poll "a", .drop "b", .abort 0, .poll "a"], OnlyPolls "a" step := by
    simp [OnlyPolls, SessionStep.slot?]
  have hcall := resolution_call .standard "id" 1 [] "a" spec {} transport hmore
  exact ⟨hcall.1, hcall.2.2 rfl⟩

end Session

end DaemonRpc

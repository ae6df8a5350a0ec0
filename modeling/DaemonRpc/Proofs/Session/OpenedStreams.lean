import DaemonRpc.Proofs.Command.Collection
import DaemonRpc.Proofs.Json.Items
import DaemonRpc.Proofs.Request.Building
import DaemonRpc.Proofs.Session.Observation
import DaemonRpc.Proofs.Session.Resolution

/-!
# The streams that calls open

A call whose answer is read item by item waits, and then opens a stream over the answer that came
for its request, or fails. Whatever else goes on in the session, the slot of the call holds nothing
but the call, that stream or nothing (`Opens`), as long as it is only polled.

For a garbage collection this is the stream of flattened results, whatever change to records its
caller asked for; so all that it ever answers is told by the body of the answer
(`Session.observe_collection`).
-/

namespace DaemonRpc

/-- A request asks for the change to records that its options do. -/
theorem RequestSpec.transform_of_build {config : ClientConfig} {resource : Resource}
    {options : RequestOptions} {spec : RequestSpec}
    (hresource : ∀ given, resource ≠ .prebuilt given)
    (h : build config resource options = .ok spec) : spec.transform = options.transform := by
  obtain ⟨url, -, hbuild⟩ := exists_of_build hresource h
  obtain ⟨limit, -, rfl⟩ := exists_limit_of_buildAt hbuild
  rfl

/-! ## Calls that wait for a stream -/

section

variable {Came : Response → Prop} {kind : StreamKind} {fired : Option AbortReason}

/-- The call waits for an answer that comes so, or reads the rest of a refused answer. -/
inductive Call.Awaits (Came : Response → Prop) : Call → Prop where
  | sending (delay : Nat) {outcome : Except Error Response} (h : ∀ r, outcome = .ok r → Came r)
      (policy : FailurePolicy) : Awaits Came (.sending delay outcome policy)
  | refused (status : Nat) (headers : Headers) (view : ByteView) (collected : List UInt8)
      (policy : FailurePolicy) : Awaits Came (.refused status headers view collected policy)

/-- How far a call for such an answer has come. -/
inductive CallProgress.Leads (Came : Response → Prop) : CallProgress → Prop where
  | pending {call : Call} (h : call.Awaits Came) : Leads Came (.pending call)
  | failed (e : Error) : Leads Came (.failed e)
  | answered {r : Response} (h : Came r) : Leads Came (.answered r)

/-- What a slot holds of a call that opens a stream over such an answer. -/
inductive Opens (Came : Response → Prop) (kind : StreamKind) : Option Activity → Prop where
  | ended : Opens Came kind none
  | calling {call : Call} (h : call.Awaits Came) :
      Opens Came kind (some (.calling call (.stream kind)))
  | stream {r : Response} (h : Came r) : Opens Came kind (some (.stream (r.stream kind)))

theorem Call.leads_readRefused (fired : Option AbortReason) (status : Nat) (headers : Headers)
    (view : ByteView) (collected : List UInt8) (policy : FailurePolicy) :
    (readRefused fired status headers view collected policy).1.Leads Came := by
  rw [readRefused]
  split
  · exact .pending (.refused ..)
  · exact .failed _

theorem Call.leads_receive {r : Response} (h : Came r) (policy : FailurePolicy) :
    (receive r policy).1.Leads Came := by
  by_cases haccepted : (r.isSuccess || !policy.throwHttpErrors) = true
  · simp only [receive, haccepted, if_true]
    exact .answered h
  · simp only [receive, haccepted, if_false, Bool.false_eq_true]
    exact leads_readRefused ..

/-- A poll of a call takes it nearer to its answer. -/
theorem Call.Awaits.poll {call : Call} (h : call.Awaits Came) (fired : Option AbortReason) :
    (call.poll fired).1.Leads Came := by
  cases h with
  | refused => exact leads_readRefused ..
  | @sending delay outcome hcame policy =>
    match fired, delay, outcome with
    | some reason, _, _ => exact .failed _
    | none, delay + 1, _ => exact .pending (.sending delay hcame policy)
    | none, 0, .error e => exact .failed e
    | none, 0, .ok r => exact leads_receive (hcame r rfl) policy

/-- A call that has started waits for the reply to the request that it has handed over. -/
theorem Call.leads_start {fired : Option AbortReason} {spec : RequestSpec} {requestId : String}
    {transport : Transport}
    (h : ∀ request r, (start fired spec requestId transport).handed = some request →
      (transport.reply request).response spec = .ok r → Came r) :
    (start fired spec requestId transport).progress.Leads Came := by
  cases fired with
  | some reason => exact .failed _
  | none => exact (Awaits.sending _ (fun r hr => h _ r rfl hr) _).poll none

/-- The turn of a call that has come so far leaves the call, its stream or nothing. -/
theorem CallProgress.Leads.opens {progress : CallProgress} (h : progress.Leads Came)
    (fired : Option AbortReason) (released : Nat) :
    Opens Came kind
      ((Turn.ofProgress fired (.stream kind) progress).andReleased released).next := by
  cases h with
  | pending hcall => exact .calling hcall
  | failed e => exact .ended
  | answered hr => exact .stream hr

end

namespace Opens

open Session

variable {s : Session} {name : String} {Came : Response → Prop} {kind : StreamKind}

/-- A call that is started leaves in its slot the call, its stream or nothing: a stream over the
reply to the request that it has handed over. -/
theorem call (s : Session) (name : String) (resource : Resource) (options : RequestOptions)
    (kind : StreamKind) (transport : Transport) :
    let called := s.call name (.ok resource) options (.stream kind) transport
    Opens (fun r => ∃ request spec, called.2.2 = some request ∧
      RequestSpec.build s.config resource options = .ok spec ∧
      (transport.reply request).response spec = .ok r) kind (called.1.slot name).activity := by
  have hconfig : (s.renew name).config = s.config := rfl
  simp only [Session.call, Except.bind, hconfig]
  cases hbuild : RequestSpec.build s.config resource options with
  | error e =>
    -- Without a request there is no call, and the slot stays empty.
    dsimp only
    rw [slot_renew, if_pos rfl]
    exact .ended
  | ok spec =>
    dsimp only
    rw [slot_take_self]
    exact (Call.leads_start fun request r hhanded hr => ⟨request, spec, hhanded, rfl, hr⟩).opens ..

/-- As long as its slot is only polled, it holds the call, its stream or nothing. -/
theorem step (h : Opens Came kind (s.slot name).activity) {step : SessionStep}
    (hstep : OnlyPolls name step) : Opens Came kind ((s.step step).1.slot name).activity := by
  rcases hstep with rfl | hne
  · generalize hactivity : (s.slot name).activity = activity at h
    cases h with
    | ended =>
      simp only [Session.step, hactivity]
      exact .ended
    | calling hcall =>
      simp only [Session.step, hactivity, slot_take_self]
      exact (hcall.poll _).opens ..
    | stream hr =>
      simp only [Session.step, hactivity, slot_take_self]
      exact .stream hr
  · rw [slot_step_of_ne s hne]
    exact h

theorem runSteps (h : Opens Came kind (s.slot name).activity) {steps : List SessionStep}
    (hsteps : ∀ step ∈ steps, OnlyPolls name step) :
    Opens Came kind ((s.runSteps steps).slot name).activity := by
  induction steps generalizing s with
  | nil => exact h
  | cons step more ih =>
    obtain ⟨hstep, hmore⟩ := List.forall_mem_cons.1 hsteps
    exact ih (h.step hstep) hmore

/-- A stream that was opened is one over an answer that came so. -/
theorem exists_response {stream : Stream} (h : Opens Came kind (some (.stream stream))) :
    ∃ r, Came r ∧ stream = r.stream kind := by
  generalize hactivity : some (Activity.stream stream) = activity at h
  cases h with
  | ended | calling => simp at hactivity
  | stream hr =>
    obtain rfl := Activity.stream.inj (Option.some.inj hactivity)
    exact ⟨_, hr, rfl⟩

end Opens

/-! ## Garbage collections -/

namespace Session

/-- The answer that a reply gives has its body and asks for the change to records of the request. -/
theorem exists_of_response {reply : Reply} {spec : RequestSpec} {r : Response}
    (h : reply.response spec = .ok r) :
    ∃ url, reply.outcome = .ok (r.status, r.headers, url, r.body) ∧
      r.transform = spec.transform := by
  rw [Reply.response] at h
  cases houtcome : reply.outcome with
  | error e =>
    rw [houtcome] at h
    cases h
  | ok answer =>
    obtain ⟨status, headers, url, body⟩ := answer
    rw [houtcome] at h
    obtain rfl := Except.ok.inj h
    exact ⟨url, rfl, rfl⟩

/-- The stream that the command of a garbage collection opens is the stream of flattened results of
the body that came for its request. -/
theorem exists_of_collection {s : Session} {name : String} {quiet : Bool}
    {options : RequestOptions} {transport : Transport} {waits : List SessionStep} {stream : Stream}
    (hwaits : ∀ step ∈ waits, OnlyPolls name step)
    (hopened : (((s.step (.command name (.repoGc quiet) options transport)).1.runSteps waits).slot
      name).activity = some (.stream stream)) :
    ∃ request status headers url body,
      s.handed? name (.command name (.repoGc quiet) options transport) = some request ∧
      (transport.reply request).outcome = .ok (status, headers, url, body) ∧
      stream = .typed .gc
        (.ofBytes { source := some body, headReport := streamReport? headers }
          (some flattening)) := by
  have hopens := (Opens.call s name (.path (Command.repoGc quiet).path)
    { (Command.repoGc quiet).options options with method := some "POST" } (.typed .gc)
    transport).runSteps hwaits
  rw [step_command, step_call] at hopened
  obtain ⟨r, ⟨request, spec, hhanded, hbuild, hresponse⟩, rfl⟩ :=
    (hopened ▸ hopens).exists_response
  obtain ⟨url, hreply, htransform⟩ := exists_of_response hresponse
  -- Its request asks for the change of the command, which takes the place of the caller's.
  have hflattening : r.transform = some flattening :=
    htransform.trans (RequestSpec.transform_of_build (by simp) hbuild)
  refine ⟨request, _, _, url, _, (if_pos rfl).trans hhanded, hreply, ?_⟩
  rw [Response.stream, hflattening]
  rfl

/-- A garbage collection reads every record without failure, and gives what it says. So once its
stream is open over the body that came for its request, however its polls are mixed with other
calls, aborts and the clock, each poll is answered: with a wait if the octets of the body wait,
and otherwise with a result for each line of the body in order, up to the first line that is no
JSON; then comes the error of that line, or else the error with which the body ends; and then
nothing more. A change to records that the caller asked for makes no difference. -/
theorem observe_collection :
    (∀ record : Json.Value, ∃ result : GcResult,
      RecordType.gc.read (GcResult.flatten record) = .ok (.gc result) ∧ result.Tells record) ∧
    ∀ (s : Session) (name : String) (quiet : Bool) (options : RequestOptions)
      (transport : Transport),
      let command : SessionStep := .command name (.repoGc quiet) options transport
      (∀ transform, s.step (.command name (.repoGc quiet) { options with transform } transport) =
        s.step command) ∧
      ∀ {waits more : List SessionStep} {stream : Stream},
        (∀ step ∈ waits, OnlyPolls name step) → (∀ step ∈ more, OnlyAsks name step) →
        let t := (s.step command).1.runSteps waits
        (t.slot name).activity = some (.stream stream) →
        ∃ request status headers url body, s.handed? name command = some request ∧
          (transport.reply request).outcome = .ok (status, headers, url, body) ∧
          let seen := t.observe name more
          (∃ parts, seen.map (·.2) = parts.flatten ∧ List.Forall₂ (Answers name) more parts) ∧
            Collected { source := some body, headReport := streamReport? headers }
              (seen.map (·.1)) (seen.map (·.2)) := by
  refine ⟨GcResult.exists_read_flatten, fun s name quiet options transport => ⟨?_, ?_⟩⟩
  · intro transform
    rw [step_command, Command.options_repoGc, ← step_command]
  · intro waits more stream hwaits hmore t hopened
    obtain ⟨request, status, headers, url, body, hhanded, hreply, rfl⟩ :=
      exists_of_collection hwaits hopened
    refine ⟨request, status, headers, url, body, hhanded, hreply, ?_⟩
    intro seen
    refine ⟨exists_answers_observe hopened hmore, ?_⟩
    have hanswers : seen.map (·.2) = _ := observe_eq_pollAll hopened hmore
    rw [hanswers]
    exact Stream.collected_pollAll _ _

/-- The body has two lines, the second of which is no JSON, and comes after a wait; its stream waits
within the second line, while another slot is dropped. The change to records that the caller asked
for would refuse every record. -/
theorem observe_collection_two_lines :
    let text := Utf8.ofString "\x7b\"Key\":\x7b\"/\":\"b\"\x7d\x7d\nn"
    let body : BodySource :=
      ⟨.native, [.frame (.data text), .pause, .frame (.data [0x6F, 0x0A])], true⟩
    let transport : Transport := ⟨fun _ => ⟨1, .ok (200, {}, none, body)⟩, fun _ => true⟩
    let options : RequestOptions := { transform := some fun _ => .error .aborted }
    let collected := (start .standard "id" 0).step (.command "a" (.repoGc true) options transport)
    let t := collected.1.runSteps [.poll "a"]
    let seen := t.observe "a" [.next "a", .drop "b", .next "a", .next "a", .next "a"]
    seen.map (·.2) =
        [.item (.typed (.gc ⟨some "b", none⟩)), .pending,
          .failed (.decode ⟨.expectedIdent, some ⟨1, 2⟩⟩), .finished] ∧
      Collected { source := some body } (seen.map (·.1)) (seen.map (·.2)) := by
  intro text body transport options collected t seen
  have hwaits : ∀ step ∈ [.poll "a"], OnlyPolls "a" step := by
    simp [OnlyPolls]
  have hmore : ∀ step ∈ [.next "a", .drop "b", .next "a", .next "a", .next "a"],
      OnlyAsks "a" step := by
    simp [OnlyAsks, SessionStep.slot?]
  have hopened : (t.slot "a").activity.any Activity.isStream = true := by decide +kernel
  have hfirings : seen.map (·.1) = [none, none, none, none] := by decide +kernel
  obtain ⟨a, hactivity, hstream⟩ := (Option.any_eq_true ..).1 hopened
  obtain ⟨stream, rfl⟩ := Activity.isStream_iff.1 hstream
  obtain ⟨-, hcollection⟩ := observe_collection
  obtain ⟨_, _, _, _, _, -, hreply, -, hcollected⟩ :=
    (hcollection (start .standard "id" 0) "a" true options transport).2 hwaits hmore hactivity
  cases hreply
  obtain ⟨_, _, _, _, _, -, hreply, rfl⟩ := exists_of_collection hwaits hactivity
  cases hreply
  -- The answers are computed poll by poll, on the stream alone.
  refine ⟨(observe_eq_pollAll hactivity hmore).trans ?_, hcollected⟩
  rw [hfirings]
  -- The view with the steps to come, the unfinished line and the lines that are ready.
  let view (steps : List BodyStep) (framer : Framer) (ready : List String) : RecordView :=
    { bytes := { source := some ⟨.native, steps, true⟩ }, framer, ready
      transform := some flattening }
  let rest : BodyStep := .frame (.data [0x6F, 0x0A])
  let record : Json.Value := .object [("cid", .string "b"), ("error", .null)]
  let refused : Error := .decode ⟨.expectedIdent, some ⟨1, 2⟩⟩
  let ended : RecordView := { (view [] {} []).stop with refusal := some refused.message }
  have hitem : (view body.steps {} []).poll none =
      (.item record, view [.pause, rest] ⟨['n'], [], 1⟩ []) := by
    simp only [body, text, view, rest, record]
    cbv
  have hwait : (view [.pause, rest] ⟨['n'], [], 1⟩ []).poll none =
      (.pending, view [rest] ⟨['n'], [], 1⟩ []) := by
    rw [RecordView.poll]
    rfl
  have hline : (view [] {} ["no"]).record "no" = .error refused := by
    cbv
  have hrefused : (view [rest] ⟨['n'], [], 1⟩ []).poll none = (.failed refused, ended) := by
    calc
      _ = (view [] {} ["no"]).poll none := by
        rw [RecordView.poll]
        rfl
      _ = (view [] {} ["no"]).deliver "no" [] := by rw [RecordView.poll]
      _ = _ := by
        rw [RecordView.deliver, hline]
        rfl
  have hended : ended.poll none = (.finished, ended) := by
    rw [RecordView.poll]
    rfl
  change (pollAll Stream.poll (.typed .gc (view body.steps {} [])) _).1 = _
  simp only [pollAll, Stream.poll, hitem, hwait, hrefused, hended]
  rfl

end Session

end DaemonRpc

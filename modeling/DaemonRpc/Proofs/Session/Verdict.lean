import DaemonRpc.Call
import DaemonRpc.Proofs.Body.Whole

/-!
# What a call comes to

A call whose signal never fires comes to a verdict that its request and the reply determine: after
so many waits, for the reply and in the body of a refused answer, a result (`RequestSpec.verdict?`).
A signal that has fired by the last of these waits counts more (`resolve`). A call that is polled
again and again comes to exactly that (`Call.run_start`).
-/

namespace DaemonRpc

/-! ## Verdicts -/

/-- The error that an answer with a failure status means, given how the reading of its body ended: a
body that cannot be read counts as empty, unless it says that the call was aborted or timed out. -/
def Response.refusal (r : Response) (hook : Option ErrorHook) : Except Error (List UInt8) → Error
  | .ok octets => (ErrorAnswer.mk r.status r.headers octets).classify hook
  | .error .aborted => .aborted
  | .error (.timedOut text) => .timedOut text
  | .error _ => (ErrorAnswer.mk r.status r.headers []).classify hook

/-- What becomes of an answer, and after how many waits; none if its body stalls while it is
read. -/
def Response.verdict? (r : Response) (policy : FailurePolicy) :
    Option (Nat × Except Error Response) :=
  if (200 ≤ r.status ∧ r.status < 300) ∨ policy.throwHttpErrors = false then some (0, .ok r)
  else
    (wholeBody? r.body.steps).map fun (waits, read) => (waits, .error (r.refusal policy.hook read))

/-- What becomes of a request with this reply whose signal never fires, and after how many
waits. -/
def RequestSpec.verdict? (spec : RequestSpec) (reply : Reply) :
    Option (Nat × Except Error Response) :=
  match reply.outcome with
  | .error e => some (reply.delay, .error e)
  | .ok (status, headers, url, body) =>
    let r : Response :=
      { status, headers, url := url.getD spec.url, body, transform := spec.transform }
    (r.verdict? ⟨spec.throwHttpErrors, spec.hook⟩).map fun (waits, result) =>
      (reply.delay + waits, result)

/-- What a call with this verdict comes to, given with what reason its signal has fired at each
poll: a reason that is there at the poll of the verdict, or before, counts more. -/
def resolve (verdict : Option (Nat × Except Error Response)) (firings : List (Option AbortReason)) :
    Option (Except Error Response) :=
  match verdict with
  | none => (firings.findSome? id).map fun reason => .error reason.error
  | some (waits, result) =>
    match (firings.take (waits + 1)).findSome? id with
    | some reason => some (.error reason.error)
    | none => if waits < firings.length then some result else none

section

variable (verdict : Option (Nat × Except Error Response)) (more : List (Option AbortReason))

theorem resolve_nil : resolve verdict [] = none := by
  cases verdict <;> rfl

theorem resolve_fired (reason : AbortReason) :
    resolve verdict (some reason :: more) = some (.error reason.error) := by
  cases verdict <;> rfl

theorem resolve_done (result : Except Error Response) :
    resolve (some (0, result)) (none :: more) = some result := by
  simp [resolve]

theorem resolve_delayed :
    resolve (verdict.map delayed) (none :: more) = resolve verdict more := by
  cases verdict with
  | none => rfl
  | some p => simp [resolve, delayed]

end

/-! ## Calls that wait -/

namespace Call

theorem refusal_eq (r : Response) (policy : FailurePolicy) (read : Except Error (List UInt8)) :
    refusal r.status r.headers policy read = r.refusal policy.hook read := by
  match read with
  | .ok octets => rfl
  | .error e => cases e <;> rfl

/-- The call has the body that it reads, and takes no report from the head of the answer. -/
def Plain : Call → Prop
  | .sending _ _ _ => True
  | .refused _ _ view _ _ => view.Plain

/-- What becomes of a call whose signal never fires, and after how many waits. -/
def verdict? : Call → Option (Nat × Except Error Response)
  | .sending delay (.error e) _ => some (delay, .error e)
  | .sending delay (.ok r) policy =>
    (r.verdict? policy).map fun (waits, result) => (delay + waits, result)
  | .refused status headers view collected policy =>
    (view.ending? collected).map fun (waits, read) =>
      (waits, .error (refusal status headers policy read))

/-- A call with this verdict has come so far by a poll. -/
inductive Nears (verdict : Option (Nat × Except Error Response)) : CallProgress → Prop
  | pending {next : Call} (plain : next.Plain) (delays : verdict = next.verdict?.map delayed) :
      Nears verdict (.pending next)
  | failed {e : Error} (ends : verdict = some (0, .error e)) : Nears verdict (.failed e)
  | answered {r : Response} (ends : verdict = some (0, .ok r)) : Nears verdict (.answered r)

theorem nears_readRefused {view : ByteView} (h : view.Plain) (status : Nat) (headers : Headers)
    (collected : List UInt8) (policy : FailurePolicy) :
    Nears (verdict? (.refused status headers view collected policy))
      (readRefused none status headers view collected policy).1 := by
  have hcollect := h.collect collected
  rw [verdict?, readRefused]
  generalize view.collect none collected = run at hcollect ⊢
  obtain ⟨_ | result, w, after⟩ := run
  · obtain ⟨hplain, hending⟩ := hcollect
    refine .pending hplain ?_
    rw [hending, verdict?, Option.map_map, Option.map_map]
    rfl
  · have hending : view.ending? collected = some (0, result) := hcollect
    rw [hending]
    exact .failed rfl

/-- An accepted answer is the result; a refused one is read at once. -/
theorem nears_receive (r : Response) (policy : FailurePolicy) :
    Nears (r.verdict? policy) (receive r policy).1 := by
  by_cases haccepted : (200 ≤ r.status ∧ r.status < 300) ∨ policy.throwHttpErrors = false
  · have haccept : (r.isSuccess || !policy.throwHttpErrors) = true := by
      simpa [Response.isSuccess] using haccepted
    rw [Response.verdict?, if_pos haccepted]
    simp only [receive, haccept, if_true]
    exact .answered rfl
  · have hrefuse : (r.isSuccess || !policy.throwHttpErrors) = false := by
      simpa [Response.isSuccess] using haccepted
    have hplain : ({ source := some r.body } : ByteView).Plain := ⟨rfl, rfl⟩
    have hread := nears_readRefused hplain r.status r.headers [] policy
    rw [verdict?, ByteView.Plain.ending?_eq rfl, map_prependOctets_nil] at hread
    rw [Response.verdict?, if_neg haccepted]
    simp only [receive, hrefuse, if_false, Bool.false_eq_true]
    simpa only [refusal_eq] using hread

theorem Plain.nears {call : Call} (h : call.Plain) : Nears call.verdict? (call.poll none).1 := by
  match call with
  | .refused status headers view collected policy =>
    exact nears_readRefused h status headers collected policy
  | .sending 0 (.error e) policy => exact .failed rfl
  | .sending 0 (.ok r) policy =>
    have hnow : verdict? (.sending 0 (.ok r) policy) = r.verdict? policy := by
      simp [verdict?]
    rw [hnow]
    exact nears_receive r policy
  | .sending (delay + 1) (.error e) policy => exact .pending trivial rfl
  | .sending (delay + 1) (.ok r) policy =>
    refine .pending trivial ?_
    rw [verdict?, verdict?, Option.map_map]
    refine congrArg (Option.map · _) (funext fun p => ?_)
    simp [delayed, Nat.add_right_comm]

/-- A call whose signal has fired fails with the reason. -/
theorem Plain.poll_of_fired {call : Call} (h : call.Plain) (reason : AbortReason) :
    (call.poll (some reason)).1 = .failed reason.error := by
  match call with
  | .sending _ _ _ => rfl
  | .refused status headers view collected policy =>
    have hcollect := ByteView.Plain.collect_of_fired h reason collected
    rw [poll, readRefused]
    generalize view.collect (some reason) collected = run at hcollect ⊢
    obtain ⟨read, w, after⟩ := run
    obtain rfl : read = .done (.error reason.error) := hcollect
    -- The error of a reason is one that counts more than the answer.
    cases reason <;> rfl

end Call

/-! ## Calls that are polled again and again -/

/-- What comes of a call that has come so far, given with what reason its signal has fired at each
further poll. -/
def CallProgress.run : CallProgress → List (Option AbortReason) → Option (Except Error Response)
  | .failed e, _ => some (.error e)
  | .answered r, _ => some (.ok r)
  | .pending _, [] => none
  | .pending call, fired :: more => run (call.poll fired).1 more

namespace Call

theorem Plain.run {call : Call} (h : call.Plain) (firings : List (Option AbortReason)) :
    (CallProgress.pending call).run firings = resolve call.verdict? firings := by
  induction firings generalizing call with
  | nil => rw [resolve_nil, CallProgress.run]
  | cons fired more ih =>
    rw [CallProgress.run]
    cases fired with
    | some reason => rw [h.poll_of_fired, resolve_fired, CallProgress.run]
    | none =>
      have hnears := h.nears
      generalize (call.poll none).1 = progress at hnears
      cases hnears with
      | pending hplain hdelays => rw [hdelays, resolve_delayed, ih hplain]
      | failed hends | answered hends => rw [hends, resolve_done, CallProgress.run]

/-- A request has the verdict of the call that waits for its reply. -/
theorem verdict?_sending (spec : RequestSpec) (reply : Reply) :
    verdict? (.sending reply.delay (reply.response spec) ⟨spec.throwHttpErrors, spec.hook⟩) =
      spec.verdict? reply := by
  rw [RequestSpec.verdict?, Reply.response]
  cases reply.outcome <;> rfl

/-- A call comes to the verdict of its request and of what the transport replies, unless its signal
fires before. -/
theorem run_start (fired : Option AbortReason) (spec : RequestSpec) (requestId : String)
    (transport : Transport) (more : List (Option AbortReason)) :
    (start fired spec requestId transport).progress.run more =
      resolve (spec.verdict? (transport.reply (spec.outgoing requestId))) (fired :: more) := by
  cases fired with
  | some reason => rw [resolve_fired, start, CallProgress.run]
  | none =>
    let reply := transport.reply (spec.outgoing requestId)
    let call : Call :=
      .sending reply.delay (reply.response spec) ⟨spec.throwHttpErrors, spec.hook⟩
    have hplain : call.Plain := trivial
    rw [← verdict?_sending, ← hplain.run, CallProgress.run]
    rfl

end Call

end DaemonRpc

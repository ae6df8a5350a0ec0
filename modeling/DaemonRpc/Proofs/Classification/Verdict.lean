import DaemonRpc.Proofs.Body.ByteTrace
import DaemonRpc.Proofs.Classification.Payload

/-!
# What a reported failure means

Each answer with a failure status means one error, which `ErrorAnswer.Verdict` tells from the hook
of the caller, the status, the header fields and the body; each report of a stream means the error
that `StreamVerdict` tells. Both read the same payloads.
-/

namespace DaemonRpc

open Json DaemonMessage

/-! ## Deadlines -/

theorem Text.occursIn_iff {needle text : List Char} :
    Text.occursIn needle text = true ↔ needle <:+: text := by
  induction text with
  | nil => simp [Text.occursIn]
  | cons c rest ih =>
    rw [Text.occursIn, Bool.or_eq_true, List.isPrefixOf_iff_prefix, ih, List.infix_cons_iff]

/-- The text holds one of the daemon's phrases for a deadline that passed. -/
def MentionsDeadline (text : String) : Prop :=
  "deadline exceeded".toList <:+: text.toList ∨ "request timed out".toList <:+: text.toList

theorem isDeadlineText_iff {text : String} :
    isDeadlineText text = true ↔ MentionsDeadline text := by
  rw [isDeadlineText, Bool.or_eq_true, Text.contains, Text.contains, Text.occursIn_iff,
    Text.occursIn_iff, MentionsDeadline]

theorem reason_ne_empty {status : Nat} {reason : String}
    (h : canonicalReason status = some reason) : reason ≠ "" := by
  rintro rfl
  unfold canonicalReason at h
  split at h <;> simp at h

namespace ErrorAnswer

variable {answer : ErrorAnswer} {hook : Option ErrorHook} {text : String} {code : Option Int}

/-! ## What the body says -/

/-- The first content type is readable and, without blanks in front and whatever the case of its
letters, begins like that of JSON. -/
def AnnouncesJson (answer : ErrorAnswer) : Prop :=
  ∃ value, (answer.headers.getAll "content-type").head? = some value ∧
    (∀ octet ∈ value, (0x20 ≤ octet ∧ octet ≤ 0x7E) ∨ octet = 0x09) ∧
      "application/json".toList <+:
        ((value.map fun octet => Char.ofNat octet.toNat).dropWhile Text.isBlank).map
          Text.lowerAscii

theorem isJson_iff : answer.isJson = true ↔ answer.AnnouncesJson := by
  constructor
  · intro h
    rw [isJson] at h
    split at h
    · cases h
    · next text htext =>
      obtain ⟨value, hvalue, htext⟩ := Option.bind_eq_some_iff.1 htext
      obtain ⟨hvisible, hdecoded⟩ := text?_eq_some_iff.1 htext
      refine ⟨value, hvalue, hvisible, ?_⟩
      rw [← hdecoded]
      simpa [Text.trimStart] using h
  · rintro ⟨value, hvalue, hvisible, hjson⟩
    have htext : (answer.headers.get? "content-type").bind HeaderValue.text? =
        some (String.ofList (value.map fun octet => Char.ofNat octet.toNat)) :=
      Option.bind_eq_some_iff.2 ⟨value, hvalue, text?_eq_some_iff.2 ⟨hvisible, by simp⟩⟩
    rw [isJson, htext]
    simpa [Text.trimStart] using hjson

/-- The text and the code that the body stands for. -/
inductive Says (answer : ErrorAnswer) : String → Option Int → Prop where
  | payload {m : DaemonMessage} (hjson : answer.AnnouncesJson) (h : Payload answer.body m) :
      answer.Says (m.text.getD "") m.code
  /-- A body that should be a payload and is none is described. -/
  | unreadable {failure : Failure} (hjson : answer.AnnouncesJson)
      (h : ∀ m, ¬ Payload answer.body m)
      (hfailure : DaemonMessage.parse answer.body = .error failure) :
      answer.Says ("failed to parse error response: " ++ failure.message) none
  | plain (hjson : ¬ answer.AnnouncesJson) :
      answer.Says (Text.trim (Utf8.toStringLossy answer.body)) none

theorem says_message (answer : ErrorAnswer) : answer.Says answer.message.1 answer.message.2 := by
  unfold message
  split
  · next hjson =>
    split
    · next m hm => exact .payload (isJson_iff.1 hjson) (parse_eq_ok_iff.1 hm)
    · next failure hfailure =>
      exact .unreadable (isJson_iff.1 hjson) (parse_eq_error_iff.1 ⟨failure, hfailure⟩) hfailure
  · next hjson => exact .plain (mt isJson_iff.2 hjson)

/-- A body stands for one text and one code. -/
theorem says_iff : answer.Says text code ↔ answer.message = (text, code) := by
  constructor
  · rintro (⟨hjson, hm⟩ | ⟨hjson, -, hfailure⟩ | hjson)
    · rw [message, if_pos (isJson_iff.2 hjson), parse_eq_ok_iff.2 hm]
    · rw [message, if_pos (isJson_iff.2 hjson), hfailure]
    · rw [message, if_neg (mt isJson_iff.1 hjson)]
  · intro h
    have hsaid := answer.says_message
    rwa [h] at hsaid

/-! ## What the answer means -/

/-- No hook is set, or it declines. -/
def HookDeclines (answer : ErrorAnswer) (hook : Option ErrorHook) : Prop :=
  ∀ h ∈ hook, h answer = none

/-- The error that an answer means. -/
inductive Verdict (answer : ErrorAnswer) (hook : Option ErrorHook) : Error → Prop where
  /-- The hook of the caller goes first. -/
  | hooked {h : ErrorHook} {e : Error} (hhook : hook = some h) (he : h answer = some e) :
      answer.Verdict hook e
  | timedOut {text : String} {code : Option Int} (hhook : answer.HookDeclines hook)
      (hsaid : answer.Says text code) (hdeadline : MentionsDeadline text) :
      answer.Verdict hook (.timedOut (some text))
  | http {text : String} {code : Option Int} (hhook : answer.HookDeclines hook)
      (hsaid : answer.Says text code) (hdeadline : ¬ MentionsDeadline text) (htext : text ≠ "") :
      answer.Verdict hook (.http answer.status text code answer.headers)
  /-- Where the body says nothing, the status does. -/
  | httpReason {reason : String} {code : Option Int} (hhook : answer.HookDeclines hook)
      (hsaid : answer.Says "" code) (hreason : canonicalReason answer.status = some reason) :
      answer.Verdict hook (.http answer.status reason code answer.headers)
  | httpUnknown {code : Option Int} (hhook : answer.HookDeclines hook)
      (hsaid : answer.Says "" code) (hreason : canonicalReason answer.status = none) :
      answer.Verdict hook (.http answer.status "request failed" code answer.headers)

theorem not_mentionsDeadline_empty : ¬ MentionsDeadline "" := by
  rintro (h | h) <;> exact absurd (List.infix_nil.1 h) (by decide)

theorem bind_hook_eq_none_iff :
    (hook.bind fun h => h answer) = none ↔ answer.HookDeclines hook :=
  Option.bind_eq_none_iff

theorem verdict_classify (answer : ErrorAnswer) (hook : Option ErrorHook) :
    answer.Verdict hook (answer.classify hook) := by
  have hsaid := answer.says_message
  unfold classify
  split
  · next e he =>
    obtain ⟨h, hhook, he⟩ := Option.bind_eq_some_iff.1 he
    exact .hooked hhook he
  · next hnone =>
    have hhook := bind_hook_eq_none_iff.1 hnone
    dsimp only
    split
    · next hdeadline => exact .timedOut hhook hsaid (isDeadlineText_iff.1 hdeadline)
    · next hdeadline =>
      split
      · next hempty =>
        rw [hempty] at hsaid
        unfold defaultText
        cases hreason : canonicalReason answer.status with
        | some reason => exact .httpReason hhook hsaid hreason
        | none => exact .httpUnknown hhook hsaid hreason
      · next htext => exact .http hhook hsaid (mt isDeadlineText_iff.2 hdeadline) htext

theorem Verdict.classify_eq {e : Error} (h : answer.Verdict hook e) :
    answer.classify hook = e := by
  -- All but the hook's own error is computed from what the body says.
  have hdeclined (hhook : answer.HookDeclines hook) {text : String} {code : Option Int}
      (hsaid : answer.Says text code) :
      answer.classify hook =
        if isDeadlineText text then .timedOut (some text)
        else .http answer.status (if text = "" then defaultText answer.status else text) code
          answer.headers := by
    rw [classify, bind_hook_eq_none_iff.2 hhook, says_iff.1 hsaid]
  cases h with
  | hooked hhook he => rw [classify, hhook, Option.bind_some, he]
  | timedOut hhook hsaid hdeadline =>
    rw [hdeclined hhook hsaid, if_pos (isDeadlineText_iff.2 hdeadline)]
  | http hhook hsaid hdeadline htext =>
    rw [hdeclined hhook hsaid, if_neg (mt isDeadlineText_iff.1 hdeadline), if_neg htext]
  | httpReason hhook hsaid hreason =>
    rw [hdeclined hhook hsaid, if_neg (mt isDeadlineText_iff.1 not_mentionsDeadline_empty),
      if_pos rfl, defaultText, hreason, Option.getD_some]
  | httpUnknown hhook hsaid hreason =>
    rw [hdeclined hhook hsaid, if_neg (mt isDeadlineText_iff.1 not_mentionsDeadline_empty),
      if_pos rfl, defaultText, hreason, Option.getD_none]

/-- Without a hook's own error there are two kinds of errors, and each says something. -/
theorem Verdict.timedOut_or_http {e : Error} (h : answer.Verdict hook e)
    (hhook : answer.HookDeclines hook) :
    (∃ text, e = .timedOut (some text) ∧ text ≠ "") ∨
      ∃ text code, e = .http answer.status text code answer.headers ∧ text ≠ "" := by
  cases h with
  | hooked hsome he => exact absurd he (by simp [hhook _ hsome])
  | timedOut _ _ hdeadline =>
    exact .inl ⟨_, rfl, fun hempty => not_mentionsDeadline_empty (hempty ▸ hdeadline)⟩
  | http _ _ _ htext => exact .inr ⟨_, _, rfl, htext⟩
  | httpReason _ _ hreason => exact .inr ⟨_, _, rfl, reason_ne_empty hreason⟩
  | httpUnknown => exact .inr ⟨_, _, rfl, by decide⟩

end ErrorAnswer

/-! ## What a report of a stream means -/

/-- The error that a report means: the message of a payload, else the text without the blanks
around it. A code without a text is not taken. -/
inductive StreamVerdict (report : String) : Error → Prop where
  | payload {text : String} {code : Option Int}
      (h : Payload (Utf8.ofString (Text.trim report)) ⟨some text, code⟩) :
      StreamVerdict report (.streamTrailer text code)
  | plain (h : ∀ text code, ¬ Payload (Utf8.ofString (Text.trim report)) ⟨some text, code⟩) :
      StreamVerdict report (.streamTrailer (Text.trim report) none)

theorem streamVerdict_streamError (report : String) :
    StreamVerdict report (streamError report) := by
  unfold streamError streamMessage
  dsimp only
  split
  · next text code hm => exact .payload (parse_eq_ok_iff.1 hm)
  · next hother =>
    exact .plain fun text code hpayload => hother text code (parse_eq_ok_iff.2 hpayload)

theorem StreamVerdict.streamError_eq {report : String} {e : Error} (h : StreamVerdict report e) :
    streamError report = e := by
  cases h with
  | payload hpayload =>
    unfold streamError streamMessage
    dsimp only
    rw [parse_eq_ok_iff.2 hpayload]
  | plain hplain =>
    -- A payload without a text is read, and left aside.
    unfold streamError streamMessage
    dsimp only
    split
    · next text code hm => exact absurd (parse_eq_ok_iff.1 hm) (hplain text code)
    · rfl

/-- Both readers take the same text and code from a payload. -/
theorem message_eq_streamMessage {answer : ErrorAnswer} {report text : String}
    {code : Option Int} (hjson : answer.AnnouncesJson)
    (hreport : Utf8.ofString (Text.trim report) = answer.body)
    (hpayload : Payload answer.body ⟨some text, code⟩) :
    answer.message = (text, code) ∧ streamMessage report = (text, code) := by
  refine ⟨ErrorAnswer.says_iff.1 (.payload hjson hpayload), ?_⟩
  unfold streamMessage
  dsimp only
  rw [hreport, parse_eq_ok_iff.2 hpayload]

/-- Every answer with a failure status means one error, told by the hook, the status, the fields
and the body, and every report of a stream means one: nothing is lost, nothing is added, and none
is without words. A payload that repeats a member is none. -/
theorem classify_and_streamError (answer : ErrorAnswer) (hook : Option ErrorHook)
    (report : String) :
    (∀ e, answer.classify hook = e ↔ answer.Verdict hook e) ∧
      (answer.HookDeclines hook →
        (∃ text, answer.classify hook = .timedOut (some text) ∧ text ≠ "") ∨
          ∃ text code, answer.classify hook = .http answer.status text code answer.headers ∧
            text ≠ "") ∧
        (∀ inner members rest, Mark '\x7b' answer.body inner →
          Members Member.IsWritten true inner members rest →
            1 < (givenTexts members).length ∨ 1 < (givenCodes members).length →
              ∀ m, ¬ Payload answer.body m) ∧
          ∀ e, streamError report = e ↔ StreamVerdict report e := by
  refine ⟨fun e => ⟨?_, ErrorAnswer.Verdict.classify_eq⟩,
    (answer.verdict_classify hook).timedOut_or_http,
    fun _ _ _ hopen hmembers => not_payload_of_repeated hopen hmembers,
    fun e => ⟨?_, StreamVerdict.streamError_eq⟩⟩
  · rintro rfl
    exact answer.verdict_classify hook
  · rintro rfl
    exact streamVerdict_streamError report

/-- Both names of the code are taken for one, so a body that gives the two is no payload; without
a hook it still means an error that says something. -/
theorem classify_of_repeated_code :
    (∃ inner members rest,
      Mark '\x7b' (Utf8.ofString "\x7b\"code\":1,\"Code\":2\x7d") inner ∧
        Members Member.IsWritten true inner members rest ∧ 1 < (givenCodes members).length ∧
          ∀ m, ¬ Payload (Utf8.ofString "\x7b\"code\":1,\"Code\":2\x7d") m) ∧
      (ErrorAnswer.HookDeclines ⟨500, {}, []⟩ none ∧
        ((∃ text, ErrorAnswer.classify ⟨500, {}, []⟩ none = .timedOut (some text) ∧ text ≠ "") ∨
          ∃ text code, ErrorAnswer.classify ⟨500, {}, []⟩ none = .http 500 text code {} ∧
            text ≠ "")) := by
  have hopen : Mark '\x7b' (Utf8.ofString "\x7b\"code\":1,\"Code\":2\x7d")
      (Utf8.ofString "\"code\":1,\"Code\":2\x7d") := ⟨[], by simp, by decide⟩
  have hkey : Takes readString (Utf8.ofString "code\":1,\"Code\":2\x7d") "code"
      (Utf8.ofString ":1,\"Code\":2\x7d") :=
    steady_readString.takes (c := ⟨_, ⟨1, 0⟩⟩) (d := ⟨_, _⟩) rfl
  have hitem : Takes Decoder.int64.ofText (Utf8.ofString "1,\"Code\":2\x7d") 1
      (Utf8.ofString ",\"Code\":2\x7d") :=
    isScalar_int64.steady.takes (c := ⟨_, ⟨1, 0⟩⟩) (d := ⟨_, _⟩) rfl
  have hkeyAgain : Takes readString (Utf8.ofString "Code\":2\x7d") "Code"
      (Utf8.ofString ":2\x7d") :=
    steady_readString.takes (c := ⟨_, ⟨1, 0⟩⟩) (d := ⟨_, _⟩) rfl
  have hitemAgain : Takes Decoder.int64.ofText (Utf8.ofString "2\x7d") 2
      (Utf8.ofString "\x7d") :=
    isScalar_int64.steady.takes (c := ⟨_, ⟨1, 0⟩⟩) (d := ⟨_, _⟩) rfl
  have hmembers : Members Member.IsWritten true (Utf8.ofString "\"code\":1,\"Code\":2\x7d")
      [.code (some 1), .code (some 2)] [] :=
    .member ⟨[], by simp, by decide⟩
      (.code hkey (.inr rfl) ⟨[], by simp, by decide⟩ (.item hitem))
      (.member ⟨Utf8.ofString "\"Code\":2\x7d", ⟨[], by simp, by decide⟩, [], by simp, by decide⟩
        (.code hkeyAgain (.inl rfl) ⟨[], by simp, by decide⟩ (.item hitemAgain))
        (.close ⟨[], by simp, by decide⟩))
  have hdeclines : ErrorAnswer.HookDeclines ⟨500, {}, []⟩ none := nofun
  exact ⟨⟨_, _, _, hopen, hmembers, by decide,
      (classify_and_streamError ⟨500, {}, _⟩ none "").2.2.1 _ _ _ hopen hmembers
        (.inr (by decide))⟩,
    hdeclines, (classify_and_streamError ⟨500, {}, []⟩ none "").2.1 hdeclines⟩

end DaemonRpc

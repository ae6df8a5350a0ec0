import DaemonRpc.Body.RecordView
import DaemonRpc.Proofs.Body.ByteTrace
import DaemonRpc.Proofs.Body.Framing

/-!
# The answers of a record view

What polling a record view answers depends on the octets of the body and on how they end, not on
the chunks and not on the waits between them: the records of the lines one by one, up to the first
line that is refused, and otherwise the error with which the octets end (`deliveries`).

The view owes these answers from the beginning (`RecordView.Owes`); each poll waits as the octets
do or pays the next of them (`RecordView.poll_reading`, `RecordView.poll_ended`).
-/

namespace DaemonRpc

/-- The answer says to ask again later. -/
def Poll.isPending {α : Type} : Poll α → Bool
  | .pending => true
  | _ => false

/-- The answers give these octets, and then the octets end: cleanly or with an error. -/
inductive ReadsOut : List (Poll (List UInt8)) → List UInt8 → Option Error → Prop where
  | finished (more : List (Poll (List UInt8))) : ReadsOut (.finished :: more) [] none
  | failed (e : Error) (more : List (Poll (List UInt8))) : ReadsOut (.failed e :: more) [] (some e)
  | pending {more : List (Poll (List UInt8))} {octets : List UInt8} {ending : Option Error}
      (h : ReadsOut more octets ending) : ReadsOut (.pending :: more) octets ending
  | item (chunk : List UInt8) {more : List (Poll (List UInt8))} {octets : List UInt8}
      {ending : Option Error} (h : ReadsOut more octets ending) :
      ReadsOut (.item chunk :: more) (chunk ++ octets) ending

/-- The record of a line after the change to records. -/
def recordOf (transform : Option RecordTransform) (line : String) : Except Error Json.Value :=
  match Json.parseText line, transform with
  | .error cause, _ => .error (.decode cause)
  | .ok value, none => .ok value
  | .ok value, some f => f value

/-- The answers for lines and for how the octets end: a record for each line up to the first that
is refused, which ends everything with its error, or else the error at the end. -/
def deliveries (transform : Option RecordTransform) :
    List String → Option Error → List (Poll Json.Value)
  | [], ending => (ending.map .failed).toList
  | line :: more, ending =>
    match recordOf transform line with
    | .ok value => .item value :: deliveries transform more ending
    | .error e => [.failed e]

/-- What counts of the line that the end of the octets ends: it is a line unless they end with an
error that is not a report of the daemon. -/
def keptLast (last : Option String) (ending : Option Error) : List String :=
  if ending.all (·.isStreamTrailer) then last.toList else []

/-- The lines of octets that end so. -/
def keptLines (octets : List UInt8) (ending : Option Error) : List String :=
  Framer.endedLines octets ++ keptLast (Framer.lastLine octets) ending

/-- Octets after a chunk go on with the unfinished line of the chunk. -/
theorem keptLines_append (chunk octets : List UInt8) (ending : Option Error) :
    keptLines (chunk ++ octets) ending =
      Framer.endedLines chunk ++ keptLines ((cutAt 0x0A chunk).2 ++ octets) ending := by
  simp only [keptLines, Framer.endedLines, Framer.lastLine, cutAt_append 0x0A chunk octets,
    List.filterMap_append, List.append_assoc]

/-- Octets without a line feed are one unfinished line. -/
theorem keptLines_of_not_mem {octets : List UInt8} (h : (0x0A : UInt8) ∉ octets)
    (ending : Option Error) :
    keptLines octets ending = keptLast (Framer.lineOf octets) ending := by
  simp [keptLines, Framer.endedLines, Framer.lastLine, cutAt_of_not_mem h]

/-- An answer takes what is owed to what is owed afterwards. -/
inductive Pays {α : Type} : List (Poll α) → Poll α → List (Poll α) → Prop where
  | wait (owed : List (Poll α)) : Pays owed .pending owed
  | item (a : α) (owed : List (Poll α)) : Pays (.item a :: owed) (.item a) owed
  | failed (e : Error) (owed : List (Poll α)) : Pays (.failed e :: owed) (.failed e) owed
  | finished : Pays [] .finished []

namespace RecordView

/-- What the view owes, given the octets that come and how they end. -/
inductive Owes : RecordView → (List UInt8 → Option Error → List (Poll Json.Value)) → Prop where
  /-- More octets come: the framer is within a line. -/
  | reading {v : RecordView} {l : List UInt8} (hreading : v.reading = true)
      (hdeferred : v.deferred = none) (hfree : (0x0A : UInt8) ∉ l)
      (hframer : v.framer = .within l) :
      Owes v fun octets ending =>
        deliveries v.transform (v.ready ++ keptLines (l ++ octets) ending) ending
  /-- The octets have ended. -/
  | ended {v : RecordView} (hreading : v.reading = false) :
      Owes v fun _ _ => deliveries v.transform v.ready v.deferred

/-- A view that has read nothing owes everything. -/
theorem owes_ofBytes (bytes : ByteView) (transform : Option RecordTransform) :
    (ofBytes bytes transform).Owes fun octets ending =>
      deliveries transform (keptLines octets ending) ending :=
  .reading (v := ofBytes bytes transform) (l := []) rfl rfl (by simp) rfl

theorem record_eq (v : RecordView) (line : String) :
    v.record line = recordOf v.transform line := by
  simp only [record, parseRecord, recordOf]
  cases Json.parseText line <;> cases v.transform <;> rfl

/-- A poll after the octets have ended pays the next answer. -/
theorem poll_ended {v : RecordView} (h : v.reading = false) (fired : Option AbortReason) :
    (v.poll fired).1.isPending = false ∧ (v.poll fired).2.reading = false ∧
      Pays (deliveries v.transform v.ready v.deferred) (v.poll fired).1
        (deliveries (v.poll fired).2.transform (v.poll fired).2.ready
          (v.poll fired).2.deferred) := by
  fun_induction RecordView.poll v fired with
  | case1 v line rest hready =>
    rw [hready, deliver, record_eq, deliveries]
    cases recordOf v.transform line with
    | ok value => exact ⟨rfl, h, .item value _⟩
    | error e => exact ⟨rfl, rfl, .failed e []⟩
  | case2 v e hdeferred hready =>
    rw [hready, hdeferred]
    exact ⟨rfl, rfl, .failed e []⟩
  | case8 v hdeferred hready =>
    rw [hready, hdeferred]
    exact ⟨rfl, h, .finished⟩
  | case3 | case4 | case5 | case6 | case7 => simp_all

/-- A chunk leaves the view within a line again, with the lines that ended in it. -/
theorem withChunk_within {v : RecordView} {l : List UInt8} (hfree : (0x0A : UInt8) ∉ l)
    (hframer : v.framer = .within l) (bytes : ByteView) (chunk : List UInt8) :
    v.withChunk bytes chunk =
      { v with bytes, framer := .within (cutAt 0x0A (l ++ chunk)).2,
               ready := Framer.endedLines (l ++ chunk) } := by
  rw [withChunk, hframer, Framer.push_within hfree]

/-- The end of the octets leaves the lines that are kept of the unfinished one. -/
theorem ready_atEnd {v : RecordView} {l : List UInt8} (hfree : (0x0A : UInt8) ∉ l)
    (hframer : v.framer = .within l) (bytes : ByteView) {ending : Option Error}
    (hkept : ending.all (·.isStreamTrailer) = true) :
    (v.atEnd bytes ending).ready = keptLines l ending := by
  rw [keptLines_of_not_mem hfree, keptLast, if_pos hkept, atEnd, hframer, Framer.finish_within]

/-- A poll while octets come asks for some of them, waits exactly if these wait, and otherwise pays
the next answer. -/
theorem poll_reading {v : RecordView} {l : List UInt8} (hreading : v.reading = true)
    (hdeferred : v.deferred = none) (hfree : (0x0A : UInt8) ∉ l) (hframer : v.framer = .within l)
    (fired : Option AbortReason) :
    ∃ n owed, let run := pollAll ByteView.poll v.bytes (List.replicate n fired)
      let (answer, w) := v.poll fired
      run.1.countP Poll.isPending = answer.isPending.toNat ∧ w.Owes owed ∧
        (w.reading = true → w.bytes = run.2) ∧
        ∀ {more octets ending}, ReadsOut (run.1 ++ more) octets ending →
          ∃ octets', (w.reading = true → ReadsOut more octets' ending) ∧
            Pays (deliveries v.transform (v.ready ++ keptLines (l ++ octets) ending) ending) answer
              (owed octets' ending) := by
  -- The number of polls of the octets is 0 if a line is ready, and 1 for each turn of the loop.
  fun_induction RecordView.poll v fired generalizing l with
  | case1 v line rest hready =>
    refine ⟨0, ?_⟩
    simp only [List.replicate_zero, pollAll, hready, List.cons_append, deliveries, deliver,
      record_eq]
    cases recordOf v.transform line with
    | ok value =>
      refine ⟨_, rfl, .reading hreading hdeferred hfree hframer, fun _ => rfl, ?_⟩
      intro more octets ending h
      exact ⟨octets, fun _ => h, .item value _⟩
    | error e =>
      refine ⟨_, rfl, .ended rfl, by simp [stop], ?_⟩
      intro more octets ending h
      exact ⟨octets, fun _ => h, .failed e []⟩
  | case2 v e hsome hready => simp [hdeferred] at hsome
  | case3 v hnone hready _ w hpoll =>
    refine ⟨1, ?_⟩
    simp only [List.replicate_one, pollAll, hpoll]
    refine ⟨_, rfl, .reading hreading hdeferred hfree hframer, fun _ => trivial, ?_⟩
    rintro more octets ending (_ | _ | h)
    exact ⟨octets, fun _ => h, .wait _⟩
  | case4 v hnone hready _ chunk w hpoll _ ih =>
    -- A chunk: the loop goes on with the lines that ended in it.
    have hnext := isCut_cutAt 0x0A (l ++ chunk)
    rw [withChunk_within hfree hframer] at ih ⊢
    obtain ⟨n, owed, hcount, howes, hbytes, hpays⟩ := ih hreading hdeferred hnext.rest_free rfl
    refine ⟨n + 1, owed, ?_⟩
    simp only [List.replicate_succ, pollAll, hpoll]
    refine ⟨by simpa [Poll.isPending] using hcount, howes, hbytes, ?_⟩
    rintro more _ ending (_ | _ | _ | ⟨_, h⟩)
    rw [hready, List.nil_append, ← List.append_assoc, keptLines_append]
    exact hpays h
  | case5 v hnone hready _ e w hpoll htrailer ih =>
    -- A report of the daemon is kept for after the last line.
    obtain ⟨hanswer, hended, hpays⟩ := poll_ended (rfl : (v.atEnd w (some e)).reading = false) fired
    refine ⟨1, _, ?_, .ended hended, by simp [hended], ?_⟩
    · rw [hanswer]
      simp [pollAll, hpoll, Poll.isPending]
    · simp only [List.replicate_one, pollAll, hpoll]
      rintro more _ _ (_ | _)
      refine ⟨[], by simp [hended], ?_⟩
      rw [ready_atEnd hfree hframer w (by simpa using htrailer)] at hpays
      rwa [hready, List.append_nil, List.nil_append]
  | case6 v hnone hready _ e w hpoll htrailer =>
    refine ⟨1, _, ?_, .ended rfl, by simp [stop], ?_⟩
    · simp [pollAll, hpoll, Poll.isPending]
    · simp only [List.replicate_one, pollAll, hpoll]
      rintro more _ _ (_ | _)
      refine ⟨[], by simp [stop], ?_⟩
      -- Any other error comes at once, and the unfinished line does not count.
      rw [hready, List.append_nil, List.nil_append, keptLines_of_not_mem hfree, keptLast,
        if_neg (by simpa using htrailer)]
      exact .failed e []
  | case7 v hnone hready _ w hpoll ih =>
    obtain ⟨hanswer, hended, hpays⟩ := poll_ended (rfl : (v.atEnd w none).reading = false) fired
    refine ⟨1, _, ?_, .ended hended, by simp [hended], ?_⟩
    · rw [hanswer]
      simp [pollAll, hpoll, Poll.isPending]
    · simp only [List.replicate_one, pollAll, hpoll]
      rintro more _ _ (_ | _)
      refine ⟨[], by simp [hended], ?_⟩
      rw [ready_atEnd hfree hframer w rfl] at hpays
      rwa [hready, List.append_nil, List.nil_append]
  | case8 v hnone hready hstopped => exact absurd hreading hstopped

/-- A poll asks the octets if they come, waits exactly if these wait, and otherwise pays the next
answer. -/
theorem poll_owes {v : RecordView} {owed : List UInt8 → Option Error → List (Poll Json.Value)}
    (howes : v.Owes owed) {bytes : ByteView} (hbytes : v.reading = true → v.bytes = bytes)
    (fired : Option AbortReason) :
    ∃ n owed', let run := pollAll ByteView.poll bytes (List.replicate n fired)
      let (answer, w) := v.poll fired
      run.1.countP Poll.isPending = answer.isPending.toNat ∧ w.Owes owed' ∧
        (w.reading = true → w.bytes = run.2) ∧
        ∀ {more octets ending}, (v.reading = true → ReadsOut (run.1 ++ more) octets ending) →
          ∃ octets', (w.reading = true → ReadsOut more octets' ending) ∧
            Pays (owed octets ending) answer (owed' octets' ending) := by
  -- Once the octets have ended the view asks them no more.
  rcases howes with ⟨hreading, hdeferred, hfree, hframer⟩ | hended
  · obtain ⟨n, owed', hcount, howes', hbytes', hpays⟩ :=
      poll_reading hreading hdeferred hfree hframer fired
    rw [hbytes hreading] at hcount hbytes' hpays
    exact ⟨n, owed', hcount, howes', hbytes', fun h => hpays (h hreading)⟩
  · obtain ⟨hanswer, hended', hpays⟩ := poll_ended hended fired
    refine ⟨0, _, ?_, .ended hended', by simp [hended'], fun {_ octets _} _ => ?_⟩
    · rw [hanswer]
      rfl
    · exact ⟨octets, by simp [hended'], hpays⟩

/-- Answers that pay what is owed, one poll more. -/
theorem prefix_of_pays {owed owed' answers : List (Poll Json.Value)} {answer : Poll Json.Value}
    {n : Nat} (h : Pays owed answer owed')
    (hrest : answers.filter (!·.isPending) <+: owed' ++ List.replicate n .finished) :
    (answer :: answers).filter (!·.isPending) <+: owed ++ List.replicate (n + 1) .finished := by
  -- One poll more is paid for by one more answer at the end.
  have hmore : owed' ++ List.replicate n .finished <+:
      owed' ++ List.replicate (n + 1) (.finished : Poll Json.Value) := by
    rw [List.replicate_succ', ← List.append_assoc]
    exact List.prefix_append _ _
  cases h with
  | wait => exact hrest.trans hmore
  | item value => exact List.prefix_cons_inj _ |>.2 (hrest.trans hmore)
  | failed e => exact List.prefix_cons_inj _ |>.2 (hrest.trans hmore)
  | finished => exact List.prefix_cons_inj _ |>.2 hrest

/-- A run of polls pays what is owed from the beginning, and waits as often as the octets do. -/
theorem pollAll_owes {v : RecordView} {owed : List UInt8 → Option Error → List (Poll Json.Value)}
    (howes : v.Owes owed) {bytes : ByteView} (hbytes : v.reading = true → v.bytes = bytes)
    (firings : List (Option AbortReason)) :
    ∃ counts : List Nat, counts.length = firings.length ∧
      let asked := (List.zipWith List.replicate counts firings).flatten
      let (answers, w) := pollAll poll v firings
      (w.reading = true → w.bytes = (pollAll ByteView.poll bytes asked).2) ∧
        answers.countP Poll.isPending =
          (pollAll ByteView.poll bytes asked).1.countP Poll.isPending ∧
        ∀ {later octets ending},
          (v.reading = true →
            ReadsOut (pollAll ByteView.poll bytes (asked ++ later)).1 octets ending) →
          answers.filter (!·.isPending) <+:
            owed octets ending ++ List.replicate firings.length .finished := by
  -- What is owed changes from poll to poll, so the induction is over any debt.
  induction firings generalizing v owed bytes with
  | nil => exact ⟨[], rfl, hbytes, rfl, fun _ => List.nil_prefix⟩
  | cons fired more ih =>
    obtain ⟨n, owed', hcount, howes', hbytes', hpays⟩ := poll_owes howes hbytes fired
    obtain ⟨counts, hlen, hlast, hwaits, hrest⟩ := ih howes' hbytes'
    refine ⟨n :: counts, by simp [hlen], ?_⟩
    simp only [List.zipWith_cons_cons, List.flatten_cons, pollAll]
    refine ⟨?_, ?_, ?_⟩
    · rw [pollAll_append]
      exact hlast
    · rw [pollAll_append, List.countP_append, hcount, ← hwaits, List.countP_cons, Nat.add_comm]
      cases (v.poll fired).1.isPending <;> rfl
    · intro later octets ending h
      rw [List.append_assoc, pollAll_append] at h
      obtain ⟨octets', h', hpays⟩ := hpays h
      exact prefix_of_pays hpays (hrest h')

/-- All that a record view answers. Each poll asks the octets some number of times, and what they
answer is all that counts: the view waits exactly as often as they do, and its other answers begin
with a record for each line of the octets, up to the first line that is refused; then comes the
error of that line, or else the error with which the octets end; and then nothing more. The line
that the end of the octets ends counts unless they end with an error that is not a report of the
daemon. Chunks and waits make no difference. -/
theorem pollAll_trace (bytes : ByteView) (transform : Option RecordTransform)
    (firings : List (Option AbortReason)) :
    ∃ counts : List Nat, counts.length = firings.length ∧
      let asked := (List.zipWith List.replicate counts firings).flatten
      let (answers, view) := pollAll poll (ofBytes bytes transform) firings
      (view.reading = true → view.bytes = (pollAll ByteView.poll bytes asked).2) ∧
        answers.countP Poll.isPending =
          (pollAll ByteView.poll bytes asked).1.countP Poll.isPending ∧
        ∀ {later octets ending lines last},
          ReadsOut (pollAll ByteView.poll bytes (asked ++ later)).1 octets ending →
          Framed octets lines last →
          answers.filter (!·.isPending) <+:
            deliveries transform (lines ++ keptLast last ending) ending ++
              List.replicate firings.length .finished := by
  obtain ⟨counts, hlen, hlast, hwaits, hpays⟩ :=
    pollAll_owes (owes_ofBytes bytes transform) (fun _ => rfl) firings
  refine ⟨counts, hlen, hlast, hwaits, fun {later octets ending lines last} hreads hframed => ?_⟩
  obtain ⟨rfl, rfl⟩ := framed_iff.1 hframed
  exact hpays fun _ => hreads

end RecordView

end DaemonRpc

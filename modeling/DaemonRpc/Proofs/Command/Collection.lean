import DaemonRpc.Body.Stream
import DaemonRpc.Command.Basic
import DaemonRpc.Proofs.Body.RecordTrace

/-!
# Records of a garbage collection

A garbage collection reports each block in a record of its own, which is flattened and then read as
a `GcResult`. Both succeed for every JSON value: what the daemon left out, and what has another type
than it should, is missing in the result (`GcResult.exists_read_flatten`).

So the items of the stream are told by the lines of the body alone (`Collects`): only a line that is
no JSON, or the end of the octets, can put an error among them.
-/

namespace DaemonRpc

/-- The value is an object with this value under the key. -/
def Json.Value.Holds (v : Json.Value) (key : String) (held : Json.Value) : Prop :=
  ∃ members, v = .object members ∧ members.lookup key = some held

theorem Json.Value.member?_eq_some_iff {v held : Json.Value} {key : String} :
    v.member? key = some held ↔ v.Holds key held := by
  cases v <;> simp [member?, Holds]

theorem Json.Value.text?_eq_some_iff {v : Json.Value} {text : String} :
    v.text? = some text ↔ v = .string text := by
  cases v <;> simp [text?]

namespace GcResult

/-- The result says what the record does: the block is the text under `/` in the key, and the error
is a text that is not empty. -/
structure Tells (result : GcResult) (record : Json.Value) : Prop where
  cid : ∀ text, result.cid = some text ↔
    ∃ key, record.Holds "Key" key ∧ key.Holds "/" (.string text)
  error : ∀ text, result.error = some text ↔
    record.Holds "Error" (.string text) ∧ text ≠ ""

theorem cidOf_eq_some_iff {record : Json.Value} {text : String} :
    cidOf record = some text ↔ ∃ key, record.Holds "Key" key ∧ key.Holds "/" (.string text) := by
  simp only [cidOf, Option.bind_eq_some_iff, Json.Value.member?_eq_some_iff,
    Json.Value.text?_eq_some_iff]
  constructor
  · rintro ⟨_, ⟨key, hkey, hheld⟩, rfl⟩
    exact ⟨key, hkey, hheld⟩
  · rintro ⟨key, hkey, hheld⟩
    exact ⟨_, ⟨key, hkey, hheld⟩, rfl⟩

theorem errorOf_eq_some_iff {record : Json.Value} {text : String} :
    errorOf record = some text ↔ record.Holds "Error" (.string text) ∧ text ≠ "" := by
  simp only [errorOf, Option.filter_eq_some_iff, Option.bind_eq_some_iff,
    Json.Value.member?_eq_some_iff, Json.Value.text?_eq_some_iff, decide_eq_true_eq]
  constructor
  · rintro ⟨⟨_, hheld, rfl⟩, hne⟩
    exact ⟨hheld, hne⟩
  · rintro ⟨hheld, hne⟩
    exact ⟨⟨_, hheld, rfl⟩, hne⟩

theorem tells_mk (record : Json.Value) : Tells ⟨cidOf record, errorOf record⟩ record where
  cid _ := cidOf_eq_some_iff
  error _ := errorOf_eq_some_iff

/-- The members of a flattened record stand in the order of their keys. -/
theorem flatten_eq (record : Json.Value) :
    flatten record =
      .object [("cid", .ofText? (cidOf record)), ("error", .ofText? (errorOf record))] := by
  have horder : ¬ "error" < "cid" := by decide
  simp [flatten, Json.Value.ofMembers, Json.putMember, horder]

/-- Any two texts, missing or not, are read back from an object. -/
theorem read_texts (cid error : Option String) :
    RecordType.gc.read (.object [("cid", .ofText? cid), ("error", .ofText? error)]) =
      .ok (.gc ⟨cid, error⟩) := by
  cases cid <;> cases error <;> rfl

/-- A flattened record is read without failure, whatever the record is. -/
theorem exists_read_flatten (record : Json.Value) :
    ∃ result : GcResult, RecordType.gc.read (flatten record) = .ok (.gc result) ∧
      result.Tells record := by
  refine ⟨_, ?_, tells_mk record⟩
  rw [flatten_eq, read_texts]

end GcResult

/-- What a stream of results owes for lines and for how the octets end: a result for each line up to
the first that is no JSON, which ends everything with its error, or else the error at the end. -/
inductive Collects : List String → Option Error → List (Poll Item) → Prop where
  | finished : Collects [] none []
  | failed (e : Error) : Collects [] (some e) [.failed e]
  | refused {line : String} {failure : Json.Failure} (h : Json.parseText line = .error failure)
      (more : List String) (ending : Option Error) :
      Collects (line :: more) ending [.failed (.decode failure)]
  | item {line : String} {record : Json.Value} {result : GcResult} {more : List String}
      {ending : Option Error} {owed : List (Poll Item)} (hrecord : Json.parseText line = .ok record)
      (htells : result.Tells record) (hmore : Collects more ending owed) :
      Collects (line :: more) ending (.item (.typed (.gc result)) :: owed)

/-- The answers to polls of a stream of results over an octet view, given with what reason the
signal has fired at each poll. Each poll asks the octets some number of times; the stream waits
exactly as often as they do, and its other answers begin with what is owed for their lines and their
ending, after which there is nothing more. Once the stream is finished it has answered with all that
is owed. -/
def Collected (bytes : ByteView) (firings : List (Option AbortReason))
    (answers : List (Poll Item)) : Prop :=
  ∃ counts : List Nat, counts.length = firings.length ∧
    let asked := (List.zipWith List.replicate counts firings).flatten
    let others := answers.filter (!·.isPending)
    answers.countP Poll.isPending = (pollAll ByteView.poll bytes asked).1.countP Poll.isPending ∧
      (∃ later octets ending,
        ReadsOut (pollAll ByteView.poll bytes (asked ++ later)).1 octets ending) ∧
      ∀ {later octets ending lines last},
        ReadsOut (pollAll ByteView.poll bytes (asked ++ later)).1 octets ending →
        Framed octets lines last →
        ∃ owed, Collects (lines ++ keptLast last ending) ending owed ∧
          others <+: owed ++ List.replicate firings.length .finished ∧
          (.finished ∈ answers → owed <+: others)

/-- The change that a garbage collection makes to each record. -/
def flattening : RecordTransform := fun record => .ok (GcResult.flatten record)

/-- The command puts its own change to records in place of the caller's. -/
theorem Command.options_repoGc (quiet : Bool) (options : RequestOptions)
    (transform : Option RecordTransform) :
    (Command.repoGc quiet).options { options with transform } =
      (Command.repoGc quiet).options options := rfl

/-- However often they were asked, the octets may still come to their end. -/
theorem ByteView.exists_readsOut (bytes : ByteView) (asked : List (Option AbortReason)) :
    ∃ later octets ending,
      ReadsOut (pollAll ByteView.poll bytes (asked ++ later)).1 octets ending := by
  induction asked generalizing bytes with
  | nil =>
    -- A signal that fires ends them.
    refine ⟨[some .aborted], [], ?_⟩
    cases hsource : bytes.source with
    | none => exact ⟨none, by simpa [pollAll, ByteView.poll, hsource] using .finished []⟩
    | some source =>
      exact ⟨some .aborted, by simpa [pollAll, ByteView.poll, hsource] using .failed _ []⟩
  | cons fired more ih =>
    obtain ⟨later, octets, ending, h⟩ := ih (bytes.poll fired).2
    refine ⟨later, ?_⟩
    rw [List.cons_append, pollAll]
    generalize bytes.poll fired = polled at h ⊢
    obtain ⟨answer, w⟩ := polled
    cases answer with
    | item chunk => exact ⟨chunk ++ octets, ending, .item chunk h⟩
    | pending => exact ⟨octets, ending, .pending h⟩
    | failed e => exact ⟨[], some e, .failed e _⟩
    | finished => exact ⟨[], none, .finished _⟩

/-- Nothing that is owed says that there is nothing more. -/
theorem Collects.finished_not_mem {lines : List String} {ending : Option Error}
    {owed : List (Poll Item)} (h : Collects lines ending owed) : .finished ∉ owed := by
  induction h with
  | finished | failed | refused => simp
  | item _ _ _ ih => simpa using ih

/-- Answers that say that there is nothing more begin with all that is owed. -/
theorem Collects.prefix_of_finished {lines : List String} {ending : Option Error}
    {owed answers more : List (Poll Item)} (h : Collects lines ending owed)
    (hbegins : answers.filter (!·.isPending) <+: owed ++ more) (hfinished : .finished ∈ answers) :
    owed <+: answers.filter (!·.isPending) := by
  -- Were the answers only part of what is owed, the end would be owed itself.
  rcases List.prefix_or_prefix_of_prefix hbegins (List.prefix_append owed more) with hle | hge
  · exact absurd (hle.mem (List.mem_filter.2 ⟨hfinished, rfl⟩)) h.finished_not_mem
  · exact hge

/-- Reading what is delivered as results adds no error. -/
theorem collects_deliveries (lines : List String) (ending : Option Error) :
    Collects lines ending
      ((deliveries (some flattening) lines ending).map (Stream.readTyped .gc)) := by
  induction lines with
  | nil =>
    cases ending with
    | none => exact .finished
    | some e => exact .failed e
  | cons line more ih =>
    cases hline : Json.parseText line with
    | error failure =>
      simp only [deliveries, recordOf, hline]
      exact .refused hline more ending
    | ok record =>
      obtain ⟨result, hread, htells⟩ := GcResult.exists_read_flatten record
      simp only [deliveries, recordOf, hline, flattening, List.map_cons, Stream.readTyped, hread]
      exact .item hline htells ih

namespace Stream

/-- A stream of records of a type answers as its view does, and reads each record. -/
theorem pollAll_typed (type : RecordType) (view : RecordView)
    (firings : List (Option AbortReason)) :
    (pollAll poll (.typed type view) firings).1 =
      (pollAll RecordView.poll view firings).1.map (readTyped type) := by
  induction firings generalizing view with
  | nil => rfl
  | cons fired more ih => simp only [pollAll, poll, List.map_cons, ih]

/-- Reading a record makes no wait and ends none. -/
theorem isPending_readTyped (type : RecordType) (answer : Poll Json.Value) :
    (readTyped type answer).isPending = answer.isPending := by
  cases answer with
  | item record =>
    rw [readTyped]
    split <;> rfl
  | pending | failed _ | finished => rfl

/-- All that a stream of results over an octet view answers, given with what reason the signal has
fired at each poll. -/
theorem collected_pollAll (bytes : ByteView) (firings : List (Option AbortReason)) :
    Collected bytes firings
      (pollAll poll (.typed .gc (.ofBytes bytes (some flattening))) firings).1 := by
  obtain ⟨counts, hlen, -, hwaits, hpays⟩ :=
    RecordView.pollAll_owes (RecordView.owes_ofBytes bytes (some flattening)) (fun _ => rfl) firings
  -- Reading a record changes no wait, so the stream waits as often as the view of records.
  have hpending : Poll.isPending ∘ readTyped .gc = Poll.isPending :=
    funext (isPending_readTyped .gc)
  have hothers : (fun answer : Poll Item => !answer.isPending) ∘ readTyped .gc =
      fun answer => !answer.isPending :=
    funext fun answer => congrArg not (isPending_readTyped .gc answer)
  rw [pollAll_typed]
  refine ⟨counts, hlen, ?_, bytes.exists_readsOut _,
    fun {later octets ending lines last} hreads hframed => ?_⟩
  · rw [List.countP_map, hpending]
    exact hwaits
  · -- What the view owes for the lines becomes what the stream owes, answer by answer.
    obtain ⟨rfl, rfl⟩ := framed_iff.1 hframed
    have howed := collects_deliveries (keptLines octets ending) ending
    have hbegins := (hpays fun _ => hreads).map (readTyped .gc)
    rw [List.map_append, List.map_replicate, ← hothers, ← List.filter_map] at hbegins
    exact ⟨_, howed, hbegins, howed.prefix_of_finished hbegins⟩

end Stream

end DaemonRpc

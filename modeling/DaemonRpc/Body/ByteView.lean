import DaemonRpc.Body.Source
import DaemonRpc.Signal.Store

/-!
# Reading a body as octets

A `ByteView` reads a body chunk by chunk. Before each chunk it looks at the signal of its call. It
closes with the first error or with the end of the body, and then has let go of the body; how it
closed is recorded. A failure that the daemon reported on the head of the answer is reported at the
end of the body, if no trailer reports one before.
-/

namespace DaemonRpc

/-- How the reading of a body ended. -/
inductive Termination where
  | endedCleanly
  /-- The daemon reported a failure. -/
  | trailerError (text : String) (code : Option Int)
  | cancelled (reason : AbortReason)
  | failed (text : String)
  deriving DecidableEq, Repr

/-- The text of a termination in diagnostics. -/
def Termination.display : Termination → String
  | .endedCleanly => "EndedCleanly"
  | .trailerError text code =>
    displayRecord "EndedWithTrailerError"
      [displayField "message" (Text.quote text), displayField "code" (Error.displayCode code)]
  | .cancelled reason => "Cancelled(" ++ reason.display ++ ")"
  | .failed text => "Failed(" ++ Text.quote text ++ ")"

/-- The answer of a stream that is asked for its next item. -/
inductive Poll (α : Type) where
  | pending
  | item (a : α)
  | failed (cause : Error)
  | finished
  deriving DecidableEq, Repr

/-- The answer of something that ends with one result. -/
inductive Await (α : Type) where
  | pending
  | done (result : Except Error α)

/-- A body while it is read. -/
structure ByteView where
  /-- The body; none once it is let go of. -/
  source : Option BodySource
  /-- A failure that was reported on the head. -/
  headReport : Option String := none
  /-- How the reading ended. -/
  termination : Option Termination := none
  deriving DecidableEq, Repr

namespace ByteView

/-- The view still has its body. -/
def isOpen (v : ByteView) : Bool := v.source.isSome

/-- The view still has a body for which something is held. -/
def isTracked (v : ByteView) : Bool := v.source.any (·.tracked)

/-- Let go of the body. -/
def close (v : ByteView) : ByteView := { v with source := none }

/-- Let go of the body and record why, unless that is recorded. -/
def closeWith (v : ByteView) (how : Termination) : ByteView :=
  { v with source := none, termination := v.termination <|> some how }

/-- Close with a failure that the daemon reported. -/
def closeWithReport (v : ByteView) (report : String) : Poll (List UInt8) × ByteView :=
  let (text, code) := streamMessage report
  (.failed (.streamTrailer text code), v.closeWith (.trailerError text code))

/-- Ask for the next chunk, given with what reason the signal of the call has fired. -/
def poll (v : ByteView) (fired : Option AbortReason) : Poll (List UInt8) × ByteView :=
  match v.source with
  | none => (.finished, v)
  | some source =>
    match fired with
    -- The signal counts even if data is ready.
    | some reason => (.failed reason.error, v.closeWith (.cancelled reason))
    | none =>
      match Reading.ofSteps source.steps with
      | .pending rest => (.pending, { v with source := some { source with steps := rest } })
      | .chunk octets rest =>
        (.item octets, { v with source := some { source with steps := rest } })
      | .report text => v.closeWithReport text
      | .failure e => (.failed e, v.closeWith (.failed e.message))
      | .finished =>
        -- No trailer has reported a failure, or the view would be closed.
        match v.headReport with
        | some text => { v with headReport := none }.closeWithReport text
        | none => (.finished, v.closeWith .endedCleanly)

/-- How many steps the body still has. -/
def remaining (v : ByteView) : Nat := (v.source.map (·.steps.length)).getD 0

/-- A chunk leaves fewer steps. -/
theorem remaining_of_item {v w : ByteView} {fired : Option AbortReason} {octets : List UInt8}
    (h : v.poll fired = (.item octets, w)) : w.remaining < v.remaining := by
  unfold poll at h
  split at h
  · simp at h
  · next source hs =>
    split at h
    · simp at h
    · split at h
      · simp at h
      · next octets' rest hr =>
        simp only [Prod.mk.injEq] at h
        rw [← h.2]
        simpa [remaining, hs] using Reading.length_of_chunk hr
      · simp [closeWithReport] at h
      · simp at h
      · split at h
        · simp [closeWithReport] at h
        · simp at h

/-- Read as far as the body is ready, after what is collected already. -/
def collect (v : ByteView) (fired : Option AbortReason) (collected : List UInt8) :
    Await (List UInt8) × ByteView × List UInt8 :=
  match h : v.poll fired with
  | (.pending, w) => (.pending, w, collected)
  | (.item octets, w) =>
    have := remaining_of_item h
    collect w fired (collected ++ octets)
  | (.failed e, w) => (.done (.error e), w, collected)
  | (.finished, w) => (.done (.ok collected), w, collected)
termination_by v.remaining

/-- The text of a view in diagnostics. -/
def display (v : ByteView) : String :=
  displayRecord "ByteStream"
    [displayField "termination" (displayOption Termination.display v.termination)]

end ByteView

end DaemonRpc

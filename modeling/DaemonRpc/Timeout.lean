import DaemonRpc.Duration.Grammar
import DaemonRpc.Json.Decoder
import DaemonRpc.Text.DecimalDigit

/-!
# Timeouts

The time limit of a call, as a number of milliseconds or as the text of a duration. A limit has two
readings: the duration for which the client itself waits, and the text that tells the daemon. The
daemon reads a narrower syntax than the client; text in that syntax is sent unchanged, any other is
sent as a number of milliseconds.
-/

namespace DaemonRpc

/-- A time limit. -/
inductive Timeout where
  /-- So many milliseconds. -/
  | millis (n : Nat)
  /-- A duration written out. -/
  | text (text : String)
  deriving DecidableEq, Repr

namespace Timeout

/-- The limit that is nearest below a duration, at most the greatest 64-bit number. -/
def ofDuration (d : Duration) : Timeout := .millis (min d.millis (UInt64.size - 1))

/-- The time that the client waits; `none` for a limit of zero, which is no limit. -/
def duration (t : Timeout) : Except Error (Option Duration) := do
  let d ← match t with
    | .millis n => Except.ok (Duration.ofMillis n)
    | .text s => Duration.parse s
  return if d.isZero then none else some d

/-! ## The daemon's syntax -/

/-- Read a number in the daemon's syntax: digits of any script, a point may follow them and more
digits that, or a point and digits. -/
def dropDaemonNumber (text : List Char) : Option (List Char) :=
  let rest := text.dropWhile Text.isDecimalDigit
  if (text.takeWhile Text.isDecimalDigit).isEmpty then
    match text with
    | '.' :: more =>
      if (more.takeWhile Text.isDecimalDigit).isEmpty then none
      else some (more.dropWhile Text.isDecimalDigit)
    | _ => none
  else
    match rest with
    | '.' :: more => some (more.dropWhile Text.isDecimalDigit)
    | _ => some rest

/-- Read a unit in the daemon's syntax, the longest one. -/
def dropDaemonUnit : List Char → Option (List Char)
  | 'n' :: 's' :: rest | 'u' :: 's' :: rest | 'µ' :: 's' :: rest | 'μ' :: 's' :: rest
  | 'm' :: 's' :: rest => some rest
  | 's' :: rest | 'm' :: rest | 'h' :: rest => some rest
  | _ => none

/-- Reading a number leaves no more than there was. -/
theorem length_dropDaemonNumber {text rest : List Char} (h : dropDaemonNumber text = some rest) :
    rest.length ≤ text.length := by
  have hrest := Duration.length_dropWhile_le Text.isDecimalDigit text
  simp only [dropDaemonNumber] at h
  split at h
  · split at h
    · next _ more _ =>
      have hmore := Duration.length_dropWhile_le Text.isDecimalDigit more
      split at h
      · simp at h
      · simp only [Option.some.injEq] at h
        rw [← h, List.length_cons]
        omega
    · simp at h
  · split at h
    · next more heq =>
      have hmore := Duration.length_dropWhile_le Text.isDecimalDigit more
      rw [heq, List.length_cons] at hrest
      simp only [Option.some.injEq] at h
      rw [← h]
      omega
    · simp only [Option.some.injEq] at h
      rw [← h]
      exact hrest

/-- Reading a unit leaves less than there was. -/
theorem length_dropDaemonUnit {text rest : List Char} (h : dropDaemonUnit text = some rest) :
    rest.length < text.length := by
  unfold dropDaemonUnit at h
  split at h
  case h_9 => simp at h
  all_goals
    simp only [Option.some.injEq] at h
    subst h
    simp only [List.length_cons]
    omega

/-- The text consists of numbers and units in the daemon's syntax, any number of them. -/
def isDaemonParts (text : List Char) : Bool :=
  if text.isEmpty then true
  else
    match hn : dropDaemonNumber text with
    | none => false
    | some afterNumber =>
      match hu : dropDaemonUnit afterNumber with
      | none => false
      | some rest =>
        have := length_dropDaemonNumber hn
        have := length_dropDaemonUnit hu
        isDaemonParts rest
termination_by text.length

/-- The text is a duration in the daemon's syntax. -/
def isDaemonSyntax (text : List Char) : Bool := !text.isEmpty && isDaemonParts text

/-- So many milliseconds in the daemon's syntax. -/
def writeMillis (n : Nat) : String := toString n ++ "ms"

/-- The text that tells the daemon. -/
def toQueryValue (t : Timeout) : Except Error String :=
  match t with
  | .millis n => .ok (writeMillis n)
  | .text s =>
    -- An error names the text without the blanks around it.
    let trimmed := Text.trim s
    if isDaemonSyntax trimmed.toList then .ok trimmed
    else (Duration.parse trimmed).map fun d => writeMillis d.millis

/-! ## JSON -/

/-- A limit as a JSON value. -/
def toValue : Timeout → Json.Value
  | .millis n => .number (.integer n)
  | .text s => .string s

/-- The limit that a JSON value denotes. -/
def ofValue? : Json.Value → Option Timeout
  | .number (.integer i) => if 0 ≤ i then some (.millis i.toNat) else none
  | .string s => some (.text s)
  | _ => none

/-- How limits are read from JSON: as a whole number of milliseconds or a string. -/
def decoder : Json.Decoder Timeout where
  ofText := fun c => do
    let (v, c) ← Json.readValue c
    match ofValue? v with
    | some t => return (t, c)
    | none => throw ⟨.noAlternative "Timeout", none⟩
  ofValue := fun v =>
    match ofValue? v with
    | some t => .ok t
    | none => .error (.noAlternative "Timeout")

/-- The text of a limit in diagnostics. -/
def display : Timeout → String
  | .millis n => "Millis(" ++ toString n ++ ")"
  | .text s => "Text(" ++ Text.quote s ++ ")"

end Timeout

end DaemonRpc

import DaemonRpc.Duration.Basic
import DaemonRpc.Error
import DaemonRpc.Text.Blank

/-!
# Durations as text

A duration is written as a whole number of milliseconds, such as `250`, or as parts with a number
and a unit each, such as `1h 30m` or `1.5s`. Units may be in either case and blanks may stand
between numbers, units and parts. The parts are summed in seconds as binary64 numbers.

`readParts` follows this grammar from left to right. Readers take the longest match and return the
rest of the text.
-/

namespace DaemonRpc

namespace Duration

/-- A unit of time. -/
inductive TimeUnit where
  | nanosecond
  | microsecond
  | millisecond
  | second
  | minute
  | hour
  | day
  deriving DecidableEq, Repr

/-- A decimal number without a sign. -/
structure Numeral where
  /-- The digits before the point. -/
  whole : List Char
  /-- The digits after the point. -/
  fraction : List Char
  deriving DecidableEq, Repr

/-- A number of units. -/
structure Part where
  /-- The number. -/
  numeral : Numeral
  /-- The unit. -/
  unit : TimeUnit
  deriving DecidableEq, Repr

/-- The number nearest to what a numeral denotes; `none` if that is infinite. -/
def Numeral.value (n : Numeral) : Option Binary64 := do
  let digits ← Text.decimalValue (n.whole ++ n.fraction)
  Binary64.ofRatio digits (Nat.pow 10 n.fraction.length)

/-- The seconds in a number of units; numbers that are infinite are refused. -/
def Part.seconds (p : Part) : Option Binary64 := do
  let x ← p.numeral.value
  match p.unit with
  | .nanosecond => x.div (← Binary64.ofNat 1000000000)
  | .microsecond => x.div (← Binary64.ofNat 1000000)
  | .millisecond => x.div (← Binary64.ofNat 1000)
  | .second => some x
  | .minute => x.mul (← Binary64.ofNat 60)
  | .hour => x.mul (← Binary64.ofNat 3600)
  | .day => x.mul (← Binary64.ofNat 86400)

/-- The sum of the parts from left to right. -/
def sumParts (parts : List Part) : Option Binary64 :=
  parts.foldlM (fun total p => do total.add (← p.seconds)) Binary64.zero

/-- Read a number: digits with an optional point and digits, or a point and digits. -/
def readNumeral (text : List Char) : Option (Numeral × List Char) :=
  let whole := text.takeWhile Text.isDigit
  let rest := text.dropWhile Text.isDigit
  match rest with
  | '.' :: more =>
    let fraction := more.takeWhile Text.isDigit
    -- A point without digits after it does not belong to the number.
    if fraction.isEmpty then
      if whole.isEmpty then none else some (⟨whole, []⟩, rest)
    else some (⟨whole, fraction⟩, more.dropWhile Text.isDigit)
  | _ => if whole.isEmpty then none else some (⟨whole, []⟩, rest)

/-- Read the longest unit, in either case. -/
def readUnit (text : List Char) : Option (TimeUnit × List Char) :=
  -- Units of two letters come first, so that `ms` is not read as minutes.
  match (text.take 2).map Text.lowerAscii with
  | 'n' :: 's' :: _ => some (.nanosecond, text.drop 2)
  | 'u' :: 's' :: _ => some (.microsecond, text.drop 2)
  | 'µ' :: 's' :: _ => some (.microsecond, text.drop 2)
  | 'm' :: 's' :: _ => some (.millisecond, text.drop 2)
  | 's' :: _ => some (.second, text.drop 1)
  | 'm' :: _ => some (.minute, text.drop 1)
  | 'h' :: _ => some (.hour, text.drop 1)
  | 'd' :: _ => some (.day, text.drop 1)
  | _ => none

/-- Remove the blanks at the start. -/
def skipBlanks (text : List Char) : List Char := text.dropWhile Text.isBlank

/-- Read a number and its unit, with blanks between and after them. -/
def readPart (text : List Char) : Option (Part × List Char) := do
  let (numeral, rest) ← readNumeral text
  let (unit, rest) ← readUnit (skipBlanks rest)
  return (⟨numeral, unit⟩, skipBlanks rest)

theorem length_dropWhile_le {α : Type} (p : α → Bool) (l : List α) :
    (l.dropWhile p).length ≤ l.length :=
  (List.dropWhile_sublist p).length_le

/-- Reading a number leaves no more than there was. -/
theorem length_readNumeral {text rest : List Char} {n : Numeral}
    (h : readNumeral text = some (n, rest)) : rest.length ≤ text.length := by
  have hrest := length_dropWhile_le Text.isDigit text
  simp only [readNumeral] at h
  split at h
  · next more heq =>
    have hmore := length_dropWhile_le Text.isDigit more
    rw [heq, List.length_cons] at hrest
    split at h
    · split at h
      · simp at h
      · simp only [Option.some.injEq, Prod.mk.injEq] at h
        rw [← h.2, heq, List.length_cons]
        exact hrest
    · simp only [Option.some.injEq, Prod.mk.injEq] at h
      rw [← h.2]
      omega
  · split at h
    · simp at h
    · simp only [Option.some.injEq, Prod.mk.injEq] at h
      rw [← h.2]
      exact hrest

/-- Reading a unit leaves less than there was. -/
theorem length_readUnit {text rest : List Char} {unit : TimeUnit}
    (h : readUnit text = some (unit, rest)) : rest.length < text.length := by
  have hlen : ((text.take 2).map Text.lowerAscii).length = min 2 text.length := by simp
  simp only [readUnit] at h
  split at h <;>
    first
    | (next heq =>
        simp only [heq, List.length_cons] at hlen
        simp only [Option.some.injEq, Prod.mk.injEq] at h
        rw [← h.2, List.length_drop]
        omega)
    | simp at h

/-- Reading a part leaves less than there was. -/
theorem length_readPart {text rest : List Char} {part : Part}
    (h : readPart text = some (part, rest)) : rest.length < text.length := by
  simp only [readPart, Option.bind_eq_bind, Option.bind_eq_some_iff, Prod.exists, Option.pure_def,
    Option.some.injEq, Prod.mk.injEq] at h
  obtain ⟨numeral, afterNumeral, hnumeral, unit, afterUnit, hunit, -, rfl⟩ := h
  have h1 := length_readNumeral hnumeral
  have h2 := length_readUnit hunit
  have h3 := length_dropWhile_le Text.isBlank afterNumeral
  have h4 := length_dropWhile_le Text.isBlank afterUnit
  simp only [skipBlanks] at h2 ⊢
  omega

/-- Read parts to the end of the text. -/
def readParts (text : List Char) : Option (List Part) :=
  if text.isEmpty then some []
  else
    match h : readPart text with
    | none => none
    | some (part, rest) =>
      have := length_readPart h
      (readParts rest).map (part :: ·)
termination_by text.length

/-- The duration that a text without blanks at its ends denotes. -/
def ofChars (text : List Char) : Option Duration :=
  match Text.natBelow UInt64.size text with
  | some n => some (ofMillis n)
  | none =>
    -- Digits alone that pass 64 bits end up here too, and are no parts without a unit.
    match readParts text with
    | none | some [] => none
    | some parts => (sumParts parts).bind ofFloatSeconds

/-- The duration that a text denotes. -/
def parse (text : String) : Except Error Duration :=
  match ofChars (Text.trimChars text.toList) with
  | some d => .ok d
  | none => .error (.configuration (.duration text))

end Duration

end DaemonRpc

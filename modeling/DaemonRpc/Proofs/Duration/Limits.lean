import DaemonRpc.Proofs.Body.ByteTrace
import DaemonRpc.Proofs.Duration.Milliseconds

/-!
# What is left of a time limit

A limit is cut to whole milliseconds in two places: when it is made from a duration, and when it is
told to the daemon in other words than it is written in. Nothing else makes a limit vanish
(`Timeout.stays_positive`), so only spans shorter than a millisecond are lost: such a span is no
limit at all when it is made from a duration, and is told as one that is over when it is written
with a blank (`Timeout.lost_below_millisecond`).
-/

namespace DaemonRpc

/-- The blanks around a text do not count. -/
theorem Duration.parse_trim {text : String} {d : Duration} :
    parse (Text.trim text) = .ok d ↔ parse text = .ok d := by
  have htoList : ∀ s, (Text.trim s).toList = Text.trimChars s.toList := fun _ =>
    String.toList_ofList
  rw [parse_eq_ok_iff, parse_eq_ok_iff, ← htoList, trim_trim, htoList]

namespace Timeout

variable {t : Timeout} {d : Duration}

/-- A number of milliseconds has 64 bits. -/
def Fits : Timeout → Prop
  | millis n => n < UInt64.size
  | text _ => True

/-- The limit is a text in the daemon's syntax, and is told in the words in which it is written. -/
def IsToldAsWritten : Timeout → Prop
  | millis _ => False
  | text s => isDaemonSyntax (Text.trim s).toList = true

/-- The time that a limit denotes, zero or not. -/
def span : Timeout → Except Error Duration
  | millis n => .ok (.ofMillis n)
  | text s => Duration.parse s

theorem duration_eq (t : Timeout) :
    t.duration = t.span.map fun d => if d.isZero then none else some d := by
  cases t with
  | millis n => rfl
  | text s =>
    rw [duration, span]
    cases Duration.parse s <;> rfl

theorem duration_eq_some_iff : t.duration = .ok (some d) ↔ t.span = .ok d ∧ d.isZero = false := by
  rw [duration_eq]
  cases hspan : t.span with
  | error e => simp [Except.map]
  | ok d' =>
    simp only [Except.map, Except.ok.injEq, Option.ite_none_left_eq_some, Option.some.injEq,
      Bool.not_eq_true]
    constructor
    · rintro ⟨hzero, rfl⟩
      exact ⟨rfl, hzero⟩
    · rintro ⟨rfl, hzero⟩
      exact ⟨hzero, rfl⟩

/-- What the daemon is told of a limit in the daemon's syntax denotes the same time. -/
theorem toQueryValue_of_toldAsWritten (ht : t.IsToldAsWritten) (h : t.span = .ok d) :
    ∃ value, t.toQueryValue = .ok value ∧ Duration.parse value = .ok d := by
  cases t with
  | millis n => exact ht.elim
  | text s => exact ⟨Text.trim s, if_pos ht, Duration.parse_trim.2 h⟩

/-- Of any other limit it is told the whole milliseconds. -/
theorem toQueryValue_of_not_toldAsWritten (ht : ¬ t.IsToldAsWritten) (h : t.span = .ok d) :
    t.toQueryValue = .ok (writeMillis d.millis) := by
  cases t with
  | millis n =>
    obtain rfl := Except.ok.inj h
    rw [Duration.millis, Duration.ofMillis, Nat.mul_div_cancel n (by decide), toQueryValue]
  | text s =>
    simp only [IsToldAsWritten] at ht
    rw [toQueryValue, if_neg ht, Duration.parse_trim.2 h]
    rfl

/-- No limit is longer than the longest that is read back. -/
theorem millis_le_of_span (hfits : t.Fits) (h : t.span = .ok d) :
    d.millis ≤ Duration.greatestMillis := by
  cases t with
  | millis n =>
    obtain rfl := Except.ok.inj h
    simp only [Fits, Duration.ofMillis, Duration.millis, Duration.greatestMillis,
      UInt64.size] at hfits ⊢
    omega
  | text s => exact Duration.millis_le_of_parse h

/-- The limit that is made from a duration. -/
theorem duration_ofDuration (d : Duration) :
    (ofDuration d).duration = .ok (if d.millis = 0 then none
      else some (.ofMillis (min d.millis (UInt64.size - 1)))) := by
  have hzero : (Duration.ofMillis (min d.millis (UInt64.size - 1))).isZero = true ↔
      d.millis = 0 := by
    simp only [Duration.isZero, Duration.ofMillis, UInt64.size, beq_iff_eq]
    omega
  rw [duration_eq, ofDuration, span, Except.map]
  simp only [hzero]

/-- A limit made from a duration is none exactly if there is no whole millisecond in it, and else it
is these milliseconds, as many as 64 bits hold. What the daemon is told of a limit that is not none
reads back as the time that the client waits if it is told as written; it reads back as some time
exactly if it is told as written or there is a whole millisecond in it. -/
theorem stays_positive (given : Duration) :
    (ofDuration given).duration = .ok (if given.millis = 0 then none
      else some (.ofMillis (min given.millis (UInt64.size - 1)))) ∧
    ∀ {t : Timeout} {limit : Duration}, t.Fits → t.duration = .ok (some limit) →
      ∃ value told, t.toQueryValue = .ok value ∧ Duration.parse value = .ok told ∧
        (t.IsToldAsWritten → told = limit) ∧
        (told.isZero = false ↔ t.IsToldAsWritten ∨ limit.millis ≠ 0) := by
  refine ⟨duration_ofDuration given, fun {t limit} hfits h => ?_⟩
  obtain ⟨hspan, hpositive⟩ := duration_eq_some_iff.1 h
  by_cases ht : t.IsToldAsWritten
  · obtain ⟨value, hvalue, hparse⟩ := toQueryValue_of_toldAsWritten ht hspan
    exact ⟨value, limit, hvalue, hparse, fun _ => rfl, by simp [hpositive, ht]⟩
  · -- The whole milliseconds are told, and they are read back as some time if there are any.
    obtain ⟨told, hparse, hzero⟩ := Duration.parse_writeMillis_le (millis_le_of_span hfits hspan)
    refine ⟨_, told, toQueryValue_of_not_toldAsWritten ht hspan, hparse, fun hw => absurd hw ht, ?_⟩
    simp [← Bool.not_eq_true, hzero, ht]

/-- A limit that is told in milliseconds, and one that is made from a duration. -/
theorem stays_positive_with_blank :
    (text "2m 10s").Fits ∧ (text "2m 10s").duration = .ok (some ⟨130000000000⟩) ∧
      (ofDuration ⟨1500000⟩).duration = .ok (some ⟨1000000⟩) ∧
      ∃ value told, (text "2m 10s").toQueryValue = .ok value ∧
        Duration.parse value = .ok told ∧ told.isZero = false := by
  have hduration : (text "2m 10s").duration = .ok (some ⟨130000000000⟩) := by decide +kernel
  obtain ⟨hmade, hkept⟩ := stays_positive ⟨1500000⟩
  obtain ⟨value, told, hvalue, htold, -, hpositive⟩ := @hkept (text "2m 10s") _ trivial hduration
  exact ⟨trivial, hduration, hmade, value, told, hvalue, htold, hpositive.2 (.inr (by decide))⟩

/-- Half a millisecond is no limit when it is made from a duration. Written with a blank the client
waits for it, and the daemon is told of zero milliseconds. -/
theorem lost_below_millisecond :
    (⟨500000⟩ : Duration).isZero = false ∧ (ofDuration ⟨500000⟩).duration = .ok none ∧
      (text "500 us").duration = .ok (some ⟨500000⟩) ∧
      (text "500 us").toQueryValue = .ok "0ms" ∧ Duration.parse "0ms" = .ok ⟨0⟩ := by
  decide +kernel

end Timeout

end DaemonRpc

import DaemonRpc.Proofs.Body.Line
import DaemonRpc.Proofs.Number.Rounding
import DaemonRpc.Timeout

/-!
# Milliseconds, written and read back

A number of milliseconds is written as its digits and the unit, and read back as a number of seconds
in binary64 that is rounded once more to nanoseconds. No exactness is needed to see that it stays a
duration: every step keeps the order, so what is read lies between the values at two numbers.

* `parse_writeMillis`: the reading is the sum of one part.
* `readMillis_mono`: fewer milliseconds are read as a duration at most as long.
* `greatestMillis`, `millis_le_of_parse`: no text denotes more milliseconds.
* `parse_writeMillis_le`: up to there every number is read back, as nothing only if it is zero.
-/

namespace DaemonRpc

/-! ## Digits -/

namespace Text

theorem isDigit_of_isDigit {c : Char} (h : c.isDigit = true) : isDigit c = true := by
  rw [Char.isDigit, Bool.and_eq_true, decide_eq_true_iff, decide_eq_true_iff] at h
  exact decide_eq_true h

theorem digitValue_of_isDigit {c : Char} (h : isDigit c = true) :
    digitValue c = some (c.toNat - '0'.toNat) :=
  if_pos (of_decide_eq_true h)

/-- Digits denote a number in base ten. -/
theorem decimalValue_of_forall {digits : List Char} (h : ∀ c ∈ digits, isDigit c = true) :
    decimalValue digits = some (Nat.ofDigitChars 10 digits 0) := by
  have hfold : ∀ (l : List Char) (acc : Nat), (∀ c ∈ l, isDigit c = true) →
      l.foldlM (fun acc c => (digitValue c).map (acc * 10 + ·)) acc =
        some (Nat.ofDigitChars 10 l acc) := by
    intro l
    induction l with
    | nil => exact fun acc _ => rfl
    | cons c l ih =>
      intro acc hl
      rw [List.forall_mem_cons] at hl
      rw [List.foldlM_cons, digitValue_of_isDigit hl.1, Nat.ofDigitChars_cons, Nat.mul_comm 10 acc]
      exact ih _ hl.2
  exact hfold digits 0 h

/-- The digits of a number denote it. -/
theorem decimalValue_toDigits (n : Nat) : decimalValue (Nat.toDigits 10 n) = some n := by
  rw [decimalValue_of_forall fun c hc =>
    isDigit_of_isDigit (Nat.isDigit_of_mem_toDigits (by decide) (by decide) hc),
    Nat.ofDigitChars_ten_toDigits]

/-- A text with a character that is no digit denotes no number. -/
theorem decimalValue_eq_none {digits : List Char} {c : Char} (hc : c ∈ digits)
    (h : digitValue c = none) : decimalValue digits = none := by
  obtain ⟨before, after, rfl⟩ := List.append_of_mem hc
  rw [decimalValue, List.foldlM_append, Option.bind_eq_bind, Option.bind_eq_none_iff]
  intro acc _
  rw [List.foldlM_cons, h]
  rfl

theorem natBelow_eq_none {limit : Nat} {text : List Char} {c : Char} (hc : c ∈ text)
    (hplus : c ≠ '+') (h : digitValue c = none) : natBelow limit text = none := by
  unfold natBelow
  extract_lets digits
  have hdigits : c ∈ digits := by
    revert hc
    unfold digits
    split
    · exact fun hc => (List.mem_cons.1 hc).resolve_left hplus
    · exact id
  rw [decimalValue_eq_none hdigits h, Option.filter_none, ite_self]

theorem lt_of_natBelow {limit n : Nat} {text : List Char} (h : natBelow limit text = some n) :
    n < limit := by
  simp only [natBelow, Option.ite_none_left_eq_some, Option.filter_eq_some_iff,
    decide_eq_true_eq] at h
  exact h.2.2

theorem isBlank_of_isDigit {c : Char} (h : isDigit c = true) : isBlank c = false := by
  have hdigit : '0' ≤ c ∧ c ≤ '9' := of_decide_eq_true h
  have hlow : (48 : Nat) ≤ c.toNat := hdigit.1
  have hhigh : c.toNat ≤ 57 := hdigit.2
  simp only [isBlank, Bool.or_eq_false_iff, Bool.and_eq_false_iff, decide_eq_false_iff_not,
    beq_eq_false_iff_ne]
  omega

end Text

namespace Duration

open Binary64 (AtMost)

variable {n m : Nat} {d : Duration} {x y : Binary64}

theorem parse_eq_ok_iff {text : String} :
    parse text = .ok d ↔ ofChars (Text.trimChars text.toList) = some d := by
  rw [parse]
  split <;> simp_all

/-! ## Reading one part -/

/-- So many milliseconds as a part of a text. -/
def millisPart (n : Nat) : Part := ⟨⟨Nat.toDigits 10 n, []⟩, .millisecond⟩

/-- The text of so many milliseconds. -/
def millisChars (n : Nat) : List Char := Nat.toDigits 10 n ++ ['m', 's']

theorem readPart_millisChars (n : Nat) : readPart (millisChars n) = some (millisPart n, []) := by
  have hdigits : ∀ c ∈ Nat.toDigits 10 n, Text.isDigit c = true := fun c hc =>
    Text.isDigit_of_isDigit (Nat.isDigit_of_mem_toDigits (by decide) (by decide) hc)
  have htake : (millisChars n).takeWhile Text.isDigit = Nat.toDigits 10 n := by
    rw [millisChars, List.takeWhile_append_of_pos hdigits]
    exact List.append_nil _
  have hdrop : (millisChars n).dropWhile Text.isDigit = ['m', 's'] := by
    rw [millisChars, List.dropWhile_append_of_pos hdigits]
    rfl
  have hnumeral : readNumeral (millisChars n) = some (⟨Nat.toDigits 10 n, []⟩, ['m', 's']) := by
    rw [readNumeral, htake, hdrop]
    exact if_neg (by simp)
  rw [readPart, hnumeral]
  rfl

theorem readParts_of_readPart {text rest : List Char} {part : Part}
    (h : readPart text = some (part, rest)) :
    readParts text = (readParts rest).map (part :: ·) := by
  have hne : text.isEmpty = false := by
    have := length_readPart h
    cases text with
    | nil => simp at this
    | cons => rfl
  rw [readParts, hne, if_neg Bool.false_ne_true]
  split
  · simp_all
  · simp_all

/-- The duration of a text that is this one part. -/
def readMillis (n : Nat) : Option Duration := (sumParts [millisPart n]).bind ofFloatSeconds

theorem ofChars_millisChars (n : Nat) : ofChars (millisChars n) = readMillis n := by
  -- The unit is no digit, so this is no bare number of milliseconds.
  have hnat : Text.natBelow UInt64.size (millisChars n) = none :=
    Text.natBelow_eq_none (c := 'm') (by simp [millisChars]) (by decide) (by decide)
  have hparts : readParts (millisChars n) = some [millisPart n] := by
    rw [readParts_of_readPart (readPart_millisChars n), readParts]
    rfl
  rw [ofChars, hnat, hparts, readMillis]

theorem trimChars_millisChars (n : Nat) : Text.trimChars (millisChars n) = millisChars n := by
  refine isTrimmed_iff.1 ⟨⟨[], [], by simp, by simp, by simp⟩, ?_, ?_⟩
  · intro c hc
    rw [millisChars, List.head?_append_of_ne_nil _ Nat.toDigits_ne_nil] at hc
    exact Text.isBlank_of_isDigit (Text.isDigit_of_isDigit
      (Nat.isDigit_of_mem_toDigits (by decide) (by decide) (List.mem_of_head? hc)))
  · intro c hc
    obtain rfl : 's' = c := by simpa [millisChars] using hc
    decide

/-- So many milliseconds are read back as one part. -/
theorem parse_writeMillis (h : readMillis n = some d) :
    parse (Timeout.writeMillis n) = .ok d := by
  have htext : (Timeout.writeMillis n).toList = millisChars n := by
    rw [Timeout.writeMillis, Nat.toString_eq_ofList_toDigits, String.toList_append,
      String.toList_ofList]
    rfl
  rw [parse_eq_ok_iff, htext, trimChars_millisChars, ofChars_millisChars, h]

/-! ## Order -/

theorem seconds_millisPart (n : Nat) :
    (millisPart n).seconds =
      (Binary64.ofRatio n 1).bind fun x => (Binary64.ofNat 1000).bind fun k => x.div k := by
  rw [Part.seconds, Numeral.value, millisPart, List.append_nil, Text.decimalValue_toDigits]
  rfl

/-- Fewer milliseconds are at most as many seconds. -/
theorem atMost_sumParts (h : n ≤ m) :
    AtMost (sumParts [millisPart n]) (sumParts [millisPart m]) := by
  have hseconds : AtMost (millisPart n).seconds (millisPart m).seconds := by
    rw [seconds_millisPart, seconds_millisPart]
    refine AtMost.bind (Binary64.atMost_ofRatio Nat.one_pos Nat.one_pos (by gcongr)) ?_
    intro x y hxy
    cases Binary64.ofNat 1000 with
    | none => exact AtMost.refl none
    | some k => exact Binary64.atMost_div hxy k
  exact AtMost.bind (hseconds.bind fun x y hxy => Binary64.atMost_add le_rfl hxy) fun x y hxy =>
    AtMost.of_le hxy

/-- The span nearest to fewer seconds is at most as long. -/
theorem ofFloatSeconds_mono (hxy : x.toRat ≤ y.toRat) {e : Duration}
    (h : ofFloatSeconds y = some e) :
    ∃ d, ofFloatSeconds x = some d ∧ d.nanoseconds ≤ e.nanoseconds := by
  simp only [ofFloatSeconds, Option.ite_none_right_eq_some, Option.some.injEq] at h ⊢
  obtain ⟨hy, rfl⟩ := h
  have hx : x.num / x.den < UInt64.size := by
    rw [Binary64.toRat_lt_iff] at hy ⊢
    exact hxy.trans_lt hy
  refine ⟨_, ⟨hx, rfl⟩, divRoundEven_mono x.den_pos y.den_pos ?_⟩
  linarith [Binary64.mul_le_mul_of_div_le x.den_pos y.den_pos hxy]

/-- Fewer milliseconds are read back as a duration at most as long. -/
theorem readMillis_mono (h : n ≤ m) {e : Duration} (hm : readMillis m = some e) :
    ∃ d, readMillis n = some d ∧ d.nanoseconds ≤ e.nanoseconds := by
  obtain ⟨y, hy, he⟩ := Option.bind_eq_some_iff.1 hm
  obtain ⟨x, hx, hxy⟩ := atMost_sumParts h y hy
  obtain ⟨d, hd, hle⟩ := ofFloatSeconds_mono hxy he
  exact ⟨d, Option.bind_eq_some_iff.2 ⟨x, hx, hd⟩, hle⟩

/-! ## The greatest duration of a text -/

/-- The milliseconds of the longest duration that a text denotes: binary64 numbers below `2 ^ 64`
have a last bit of at most `2 ^ 11`. -/
def greatestMillis : Nat := (UInt64.size - 2048) * 1000

theorem millis_ofFloatSeconds_le (hx : x.WellFormed) (h : ofFloatSeconds x = some d) :
    d.millis ≤ greatestMillis := by
  simp only [ofFloatSeconds, Option.ite_none_right_eq_some, Option.some.injEq] at h
  obtain ⟨hlt, rfl⟩ := h
  have hle : x.toRat ≤ (UInt64.size - 2048 : Nat) :=
    hx.toRat_le 11 ((Binary64.toRat_lt_iff x UInt64.size).1 hlt)
  have hnum : x.num ≤ (UInt64.size - 2048) * x.den := by
    rw [Binary64.toRat, div_le_iff₀ (by exact_mod_cast x.den_pos)] at hle
    exact_mod_cast hle
  have hnanos : divRoundEven (x.num * 1000000000) x.den ≤ (UInt64.size - 2048) * 1000000000 := by
    refine divRoundEven_le x.den_pos ?_
    linarith [Nat.mul_le_mul_right 1000000000 hnum]
  rw [millis, greatestMillis]
  simp only [UInt64.size] at hnanos ⊢
  omega

/-- A sum of parts is a number of the format. -/
theorem wellFormed_sumParts {parts : List Part} (h : sumParts parts = some x) : x.WellFormed := by
  have hfold : ∀ (parts : List Part) (total : Binary64), total.WellFormed →
      parts.foldlM (fun total p => do total.add (← p.seconds)) total = some x → x.WellFormed := by
    intro parts
    induction parts with
    | nil => exact fun total htotal h => Option.some.inj h ▸ htotal
    | cons p parts ih =>
      intro total htotal h
      simp only [List.foldlM_cons, Option.bind_eq_bind, Option.bind_eq_some_iff] at h
      obtain ⟨next, ⟨seconds, -, hnext⟩, h⟩ := h
      exact ih next (Binary64.wellFormed_add hnext) h
  exact hfold parts _ Binary64.wellFormed_zero h

/-- No text denotes more milliseconds than the greatest. -/
theorem millis_le_of_parse {text : String} (h : parse text = .ok d) :
    d.millis ≤ greatestMillis := by
  rw [parse_eq_ok_iff, ofChars] at h
  split at h
  · next n hn =>
    obtain rfl := Option.some.inj h
    have hlt := Text.lt_of_natBelow hn
    simp only [millis, ofMillis, greatestMillis, UInt64.size] at hlt ⊢
    omega
  · split at h
    · cases h
    · cases h
    · obtain ⟨x, hsum, hx⟩ := Option.bind_eq_some_iff.1 h
      exact millis_ofFloatSeconds_le (wellFormed_sumParts hsum) hx

/-! ## Reading back -/

/-- Up to the greatest, every number of milliseconds is read back, as nothing only if it is zero. -/
theorem parse_writeMillis_le (h : n ≤ greatestMillis) :
    ∃ d, parse (Timeout.writeMillis n) = .ok d ∧ (d.isZero = true ↔ n = 0) := by
  -- What is read at the greatest number, at one and at zero bounds all the rest.
  have hgreatest : readMillis greatestMillis = some (ofMillis greatestMillis) := by decide +kernel
  have hone : readMillis 1 = some (ofMillis 1) := by decide +kernel
  have hzero : readMillis 0 = some (ofMillis 0) := by decide +kernel
  obtain ⟨d, hd, -⟩ := readMillis_mono h hgreatest
  refine ⟨d, parse_writeMillis hd, ?_⟩
  rw [isZero, beq_iff_eq]
  constructor
  · intro hd0
    by_contra hn
    obtain ⟨e, he, hle⟩ := readMillis_mono (Nat.one_le_iff_ne_zero.2 hn) hd
    obtain rfl := Option.some.inj (hone.symm.trans he)
    simp [hd0, ofMillis] at hle
  · rintro rfl
    obtain rfl := Option.some.inj (hzero.symm.trans hd)
    rfl

end Duration

end DaemonRpc

import DaemonRpc.Proofs.Duration.DaemonSyntax
import DaemonRpc.Proofs.Duration.Limits

/-!
# The two readings of a limit

The daemon's syntax allows digits of any script, a point at the end of a number and the letter mu in
a unit, none of which the client reads (`exists_reads_iff`). So the two readings of a limit agree
unless it is written in the daemon's syntax and has a part of this kind, or is too long for a
duration (`Timeout.readings_agree_iff`).
-/

namespace DaemonRpc

namespace Timeout

open Duration (Part AllBlank Parts Denotes)

namespace ToldPart

/-- The client reads the part as this one. -/
def Reads (p : ToldPart) (part : Part) : Prop :=
  part.numeral.IsWritten p.number ∧ part.unit.IsSpelled p.unit

/-- The number has ASCII digits only and does not end with a point, and no mu is in the unit. -/
def IsPlain (p : ToldPart) : Prop :=
  (∀ c ∈ p.number, c.toNat < 0x80) ∧ p.number.getLast? ≠ some '.' ∧ 'μ' ∉ p.unit

end ToldPart

/-- The client reads all parts, but their sum is infinite or no less than `2 ^ 64` seconds. -/
def IsTooLong (parts : List ToldPart) : Prop :=
  ∃ read, List.Forall₂ ToldPart.Reads parts read ∧
    ∀ total, Duration.sumParts read = some total → 2 ^ 64 ≤ total.toRat

/-- The limit is a text in the daemon's syntax, but with a part that is not plain, or too long. -/
def IsOnlyTold : Timeout → Prop
  | millis _ => False
  | text s => ∃ parts, parts ≠ [] ∧ (∀ p ∈ parts, p.IsWritten) ∧
      (Text.trim s).toList = parts.flatMap ToldPart.chars ∧
      ((∃ p ∈ parts, ¬ p.IsPlain) ∨ IsTooLong parts)

variable {number unit rest tail : List Char} {p : ToldPart} {parts : List ToldPart} {part : Part}
  {read : List Part}

/-! ## Parts -/

/-- Every number that the client reads is one in the daemon's syntax. -/
theorem isToldNumber_of_isWritten {numeral : Duration.Numeral} (h : numeral.IsWritten number) :
    IsToldNumber number := by
  have hdecimal : ∀ {digits}, Duration.AllDigits digits → AllDecimal digits :=
    fun hdigits c hc => Duration.isDecimalDigit_of_isDigit (hdigits c hc)
  cases h with
  | whole hne hdigits => exact .whole hne (hdecimal hdigits)
  | decimal hne hwhole hfraction =>
    exact .decimal (by simp [hne]) (hdecimal hwhole) (hdecimal hfraction)

theorem endsUnit_of_isSpelled {u : Duration.TimeUnit} (h : u.IsSpelled unit) {c : Char}
    (hc : c ∈ unit) : endsUnit c = false := by
  rw [endsUnit, Duration.isDecimalDigit_of_unitLetter (h.letters hc), Bool.false_or]
  exact Duration.isNoUnit_of_unitLetter (h.letters hc)

/-- Where the client reads a part, it reads the part of the daemon's syntax that stands there. -/
theorem ToldPart.IsWritten.reads (hp : p.IsWritten) {text : List Char} (hpart : part.IsWritten text)
    (htail : ∀ c, tail.head? = some c → endsUnit c = true)
    (hrest : ∀ c, rest.head? = some c → endsUnit c = true)
    (h : text ++ tail = p.chars ++ rest) : p.Reads part ∧ tail = rest := by
  obtain ⟨number, blanks, unit, rfl, hnumber, hblanks, hunit⟩ := hpart
  have hhead : ∀ c, (unit ++ tail).head? = some c → endsUnit c = false := fun c =>
    endsUnit_of_head? hunit.ne_nil (fun _ => endsUnit_of_isSpelled hunit)
  have hhead' : ∀ c, (p.unit ++ rest).head? = some c → endsUnit c = false := fun c =>
    endsUnit_of_head? (ne_nil_of_mem_toldUnits hp.unit) (fun _ => endsUnit_of_mem_toldUnits hp.unit)
  have htext : number ++ (blanks ++ (unit ++ tail)) = p.number ++ (p.unit ++ rest) := by
    simpa [ToldPart.chars] using h
  -- The number, the blanks and the unit are three runs, each of its own class of characters.
  obtain ⟨hnumber', htext⟩ := span_inj (p := inNumber)
    (fun c hc => (isToldNumber_of_isWritten hnumber).inNumber hc)
    (fun c hc => by
      obtain ⟨hdigit, hpoint⟩ := hunit.isDecimalDigit hblanks hc
      simp [inNumber, hdigit, hpoint])
    (fun c hc => hp.number.inNumber hc)
    (fun c hc => (endsUnit_eq_false (hhead' c hc)).1) htext
  have hnone : ∀ c ∈ ([] : List Char), Text.isBlank c = true := by simp
  obtain ⟨-, htext⟩ := span_inj hblanks (fun c hc => (endsUnit_eq_false (hhead c hc)).2) hnone
    (fun c hc => (endsUnit_eq_false (hhead' c hc)).2) htext
  obtain ⟨hunit', htail⟩ := span_inj (p := fun c => !endsUnit c)
    (fun c hc => by rw [endsUnit_of_isSpelled hunit hc, Bool.not_false])
    (fun c hc => by rw [htail c hc, Bool.not_true])
    (fun c hc => by rw [endsUnit_of_mem_toldUnits hp.unit hc, Bool.not_false])
    (fun c hc => by rw [hrest c hc, Bool.not_true]) htext
  exact ⟨⟨hnumber' ▸ hnumber, hunit' ▸ hunit⟩, htail⟩

/-- The client reads a text in the daemon's syntax part by part. -/
theorem parts_flatMap_iff (hparts : ∀ p ∈ parts, p.IsWritten) :
    Parts read (parts.flatMap ToldPart.chars) ↔
      parts ≠ [] ∧ List.Forall₂ ToldPart.Reads parts read := by
  constructor
  · intro h
    induction parts generalizing read with
    | nil => exact absurd rfl h.ne_nil
    | cons p parts ih =>
      obtain ⟨hp, hmore⟩ := List.forall_mem_cons.1 hparts
      have hrest : ∀ c, (parts.flatMap ToldPart.chars).head? = some c → endsUnit c = true :=
        fun c hc => endsUnit_of_inNumber (inNumber_of_head? hmore hc)
      rw [List.flatMap_cons] at h
      refine ⟨List.cons_ne_nil p parts, ?_⟩
      generalize htext : p.chars ++ parts.flatMap ToldPart.chars = text at h
      cases h with
      | last hpart =>
        have hnone : ∀ c, ([] : List Char).head? = some c → endsUnit c = true := by simp
        obtain ⟨hreads, hnil⟩ := hp.reads hpart hnone hrest (by simp [htext])
        cases parts with
        | nil => exact .cons hreads .nil
        | cons q parts =>
          have hq := (hmore q List.mem_cons_self).number.ne_nil
          simp [ToldPart.chars, hq] at hnil
      | @cons part more text blanks behind hpart hblanks hbehind =>
        have hnext : ∀ c, (blanks ++ behind).head? = some c → endsUnit c = true := by
          intro c hc
          cases blanks with
          | nil =>
            rcases hbehind.startsPart c hc with hdigit | rfl
            · rw [endsUnit, Duration.isDecimalDigit_of_isDigit hdigit, Bool.true_or]
            · decide
          | cons b blanks =>
            obtain rfl := Option.some.inj hc
            simp [endsUnit, Duration.isNoUnit, hblanks b List.mem_cons_self]
        obtain ⟨hreads, htail⟩ := hp.reads hpart hnext hrest htext.symm
        cases blanks with
        | nil => exact .cons hreads (ih hmore (htail ▸ hbehind)).2
        | cons b blanks =>
          -- No part begins with a blank.
          have hb := isBlank_of_inNumber (inNumber_of_head? hmore (c := b) (by rw [← htail]; rfl))
          rw [hblanks b List.mem_cons_self] at hb
          cases hb
  · rintro ⟨hne, h⟩
    have hwritten : ∀ {p : ToldPart} {part : Part}, p.Reads part → part.IsWritten p.chars :=
      fun hreads => ⟨_, [], _, rfl, hreads.1, by simp [AllBlank], hreads.2⟩
    induction h with
    | nil => exact absurd rfl hne
    | @cons p part parts more hreads hmore ih =>
      rw [List.flatMap_cons]
      cases hmore with
      | nil => simpa using Parts.last (hwritten hreads)
      | cons =>
        obtain ⟨-, hrest⟩ := List.forall_mem_cons.1 hparts
        have hnone : AllBlank [] := by simp [AllBlank]
        simpa using Parts.cons (hwritten hreads) hnone (ih hrest (List.cons_ne_nil _ _))

/-- The client reads a number in the daemon's syntax if its digits are ASCII and no point is at its
end. -/
theorem exists_isWritten_iff (h : IsToldNumber number) :
    (∃ numeral : Duration.Numeral, numeral.IsWritten number) ↔
      (∀ c ∈ number, c.toNat < 0x80) ∧ number.getLast? ≠ some '.' := by
  constructor
  · rintro ⟨numeral, hnumeral⟩
    have hascii : ∀ {c}, Text.isDigit c = true → c.toNat < 0x80 := by
      intro c hc
      have hhigh : c.toNat ≤ 57 := (of_decide_eq_true hc).2
      omega
    have hpoint : Text.isDigit '.' ≠ true := by decide
    cases hnumeral with
    | whole hne hdigits =>
      exact ⟨fun c hc => hascii (hdigits c hc),
        fun hlast => hpoint (hdigits '.' (List.mem_of_getLast? hlast))⟩
    | decimal hne hwhole hfraction =>
      constructor
      · intro c hc
        rcases List.mem_append.1 hc with hc | hc
        · exact hascii (hwhole c hc)
        · rcases List.mem_cons.1 hc with rfl | hc
          · decide
          · exact hascii (hfraction c hc)
      · rw [List.getLast?_append_of_ne_nil _ (List.cons_ne_nil _ _),
          List.getLast?_cons_of_ne_nil hne]
        exact fun hlast => hpoint (hfraction '.' (List.mem_of_getLast? hlast))
  · rintro ⟨hascii, hlast⟩
    have hdigits : ∀ {digits}, AllDecimal digits → (∀ c ∈ digits, c.toNat < 0x80) →
        Duration.AllDigits digits := by
      intro digits hdecimal hascii c hc
      have hlow : c.toNat < 0x660 := Nat.lt_of_lt_of_le (hascii c hc) (by decide)
      exact (Duration.isDecimalDigit_iff hlow).1 (hdecimal c hc)
    cases h with
    | whole hne hdecimal => exact ⟨_, .whole hne (hdigits hdecimal hascii)⟩
    | decimal hne hwhole hfraction =>
      rw [List.forall_mem_append, List.forall_mem_cons] at hascii
      obtain ⟨hfirst, -, hlater⟩ := hascii
      refine ⟨_, .decimal ?_ (hdigits hwhole hfirst) (hdigits hfraction hlater)⟩
      rintro rfl
      exact hlast (by simp)

/-- The unit of each name in the daemon's syntax, of those without the letter mu. -/
theorem exists_isSpelled_iff (h : unit ∈ toldUnits) :
    (∃ u : Duration.TimeUnit, u.IsSpelled unit) ↔ 'μ' ∉ unit := by
  constructor
  · rintro ⟨u, hspelled⟩ hmu
    exact absurd (hspelled.letters hmu) (by decide)
  · intro hmu
    have hnames : ∀ unit ∈ toldUnits, 'μ' ∉ unit → ∃ u ∈ [Duration.TimeUnit.nanosecond,
        .microsecond, .millisecond, .second, .minute, .hour],
          unit.map Text.lowerAscii ∈ u.names := by decide
    obtain ⟨u, -, hspelled⟩ := hnames unit h hmu
    exact ⟨u, hspelled⟩

/-- The client reads exactly the plain parts. -/
theorem exists_reads_iff (hp : p.IsWritten) : (∃ part, p.Reads part) ↔ p.IsPlain := by
  rw [ToldPart.IsPlain, ← and_assoc, ← exists_isWritten_iff hp.number,
    ← exists_isSpelled_iff hp.unit]
  constructor
  · rintro ⟨⟨numeral, u⟩, hnumber, hunit⟩
    exact ⟨⟨numeral, hnumber⟩, u, hunit⟩
  · rintro ⟨⟨numeral, hnumber⟩, u, hunit⟩
    exact ⟨⟨numeral, u⟩, hnumber, hunit⟩

theorem exists_forall₂_reads_iff (hparts : ∀ p ∈ parts, p.IsWritten) :
    (∃ read, List.Forall₂ ToldPart.Reads parts read) ↔ ∀ p ∈ parts, p.IsPlain := by
  induction parts with
  | nil => exact ⟨fun _ => by simp, fun _ => ⟨[], .nil⟩⟩
  | cons p parts ih =>
    obtain ⟨hp, hmore⟩ := List.forall_mem_cons.1 hparts
    rw [List.forall_mem_cons, ← exists_reads_iff hp, ← ih hmore]
    constructor
    · rintro ⟨read, h⟩
      cases h with
      | cons hreads hrest => exact ⟨⟨_, hreads⟩, _, hrest⟩
    · rintro ⟨⟨part, hreads⟩, read, hrest⟩
      exact ⟨part :: read, .cons hreads hrest⟩

/-! ## Limits -/

/-- A text in the daemon's syntax denotes a duration for the client if all its parts are plain and
their sum is below `2 ^ 64` seconds. -/
theorem exists_denotes_iff (hne : parts ≠ []) (hparts : ∀ p ∈ parts, p.IsWritten) :
    (∃ d, Denotes (parts.flatMap ToldPart.chars) d) ↔
      (∀ p ∈ parts, p.IsPlain) ∧ ¬ IsTooLong parts := by
  have hdenotes : (∃ d, Denotes (parts.flatMap ToldPart.chars) d) ↔ ∃ read total,
      List.Forall₂ ToldPart.Reads parts read ∧ Duration.sumParts read = some total ∧
        total.toRat < 2 ^ 64 := by
    constructor
    · rintro ⟨d, h⟩
      generalize htext : parts.flatMap ToldPart.chars = text at h
      cases h with
      | @millis sign digits hsign hnone hdigits hlt =>
        -- The first unit holds neither a digit nor a sign.
        obtain ⟨p, more, rfl⟩ := List.exists_cons_of_ne_nil hne
        have hunit := (hparts p List.mem_cons_self).unit
        obtain ⟨c, letters, hc⟩ := List.exists_cons_of_ne_nil (ne_nil_of_mem_toldUnits hunit)
        have hletter := endsUnit_of_mem_toldUnits hunit (c := c) (by simp [hc])
        obtain ⟨-, hno⟩ := Bool.or_eq_false_iff.1 hletter
        obtain ⟨-, hdigit, -, hplus⟩ := Duration.isNoUnit_eq_false_iff.1 hno
        have hmem : c ∈ sign ++ digits := by simp [← htext, ToldPart.chars, hc]
        rcases List.mem_append.1 hmem with hmem | hmem
        · rcases hsign with rfl | rfl
          · cases hmem
          · exact absurd (List.mem_singleton.1 hmem) hplus
        · rw [hdigits c hmem] at hdigit
          cases hdigit
      | parts hread hsum hlt =>
        obtain ⟨-, hall⟩ := (parts_flatMap_iff hparts).1 (htext ▸ hread)
        exact ⟨_, _, hall, hsum, hlt⟩
    · rintro ⟨read, total, hall, hsum, hlt⟩
      exact ⟨_, .parts ((parts_flatMap_iff hparts).2 ⟨hne, hall⟩) hsum hlt⟩
  rw [hdenotes, ← exists_forall₂_reads_iff hparts]
  constructor
  · rintro ⟨read, total, hall, hsum, hlt⟩
    refine ⟨⟨read, hall⟩, ?_⟩
    rintro ⟨read', hall', hlong⟩
    -- The text is read in one way only.
    obtain rfl := ((parts_flatMap_iff hparts).2 ⟨hne, hall⟩).unique
      ((parts_flatMap_iff hparts).2 ⟨hne, hall'⟩)
    exact absurd (hlong total hsum) (not_le.2 hlt)
  · rintro ⟨⟨read, hall⟩, hshort⟩
    by_contra hnone
    refine hshort ⟨read, hall, fun total hsum => not_lt.1 fun hlt => hnone ?_⟩
    exact ⟨read, total, hall, hsum, hlt⟩

theorem exists_duration_text_iff (s : String) :
    (∃ d, (text s).duration = .ok d) ↔ ∃ d, Denotes (Text.trim s).toList d := by
  obtain ⟨-, -, hlast⟩ := isTrimmed_iff.2 (rfl : Text.trimChars s.toList = Text.trimChars s.toList)
  rw [duration_eq, span, Text.trim, String.toList_ofList]
  simp only [← Duration.ofChars_eq_some_iff hlast, ← Duration.parse_eq_ok_iff]
  cases Duration.parse s <;> simp [Except.map]

/-- The client reads a limit in the daemon's syntax exactly if it is not for the daemon only. -/
theorem exists_duration_iff_not_isOnlyTold {s : String} (h : (text s).IsToldAsWritten) :
    (∃ d, (text s).duration = .ok d) ↔ ¬ (text s).IsOnlyTold := by
  rw [exists_duration_text_iff]
  constructor
  · rintro hdenotes ⟨parts, hne, hparts, htext, hexcept⟩
    rw [htext, exists_denotes_iff hne hparts] at hdenotes
    obtain ⟨hplain, hshort⟩ := hdenotes
    rcases hexcept with ⟨p, hp, hno⟩ | hlong
    · exact hno (hplain p hp)
    · exact hshort hlong
  · intro hboth
    obtain ⟨parts, hne, hparts, htext⟩ := isDaemonSyntax_iff.1 h
    rw [htext, exists_denotes_iff hne hparts]
    constructor
    · intro p hp
      by_contra hno
      exact hboth ⟨parts, hne, hparts, htext, .inl ⟨p, hp, hno⟩⟩
    · exact fun hlong => hboth ⟨parts, hne, hparts, htext, .inr hlong⟩

/-- Where the client can wait for a limit, the daemon can be told of it. -/
theorem exists_toQueryValue {t : Timeout} {limit : Option Duration} (h : t.duration = .ok limit) :
    ∃ value, t.toQueryValue = .ok value := by
  rw [duration_eq] at h
  cases hspan : t.span with
  | error e =>
    rw [hspan] at h
    cases h
  | ok d =>
    by_cases ht : t.IsToldAsWritten
    · obtain ⟨value, hvalue, -⟩ := toQueryValue_of_toldAsWritten ht hspan
      exact ⟨value, hvalue⟩
    · exact ⟨_, toQueryValue_of_not_toldAsWritten ht hspan⟩

/-- A limit that is not told as written is told in milliseconds, for which the client reads it. -/
theorem exists_duration_of_toQueryValue {t : Timeout} {value : String} (ht : ¬ t.IsToldAsWritten)
    (h : t.toQueryValue = .ok value) : ∃ limit, t.duration = .ok limit := by
  cases t with
  | millis n => exact ⟨_, rfl⟩
  | text s =>
    simp only [IsToldAsWritten] at ht
    rw [toQueryValue, if_neg ht] at h
    cases hparse : Duration.parse (Text.trim s) with
    | error e =>
      rw [hparse] at h
      cases h
    | ok d =>
      rw [duration_eq, span, Duration.parse_trim.1 hparse]
      exact ⟨_, rfl⟩

/-- Whenever the client can wait for a limit the daemon can be told of it, and the converse fails
exactly for a text in the daemon's syntax with a part that is not plain, or with parts that come to
`2 ^ 64` seconds or more. The texts in the daemon's syntax are those of its grammar. -/
theorem readings_agree_iff (t : Timeout) :
    ((∃ limit, t.duration = .ok limit) → ∃ value, t.toQueryValue = .ok value) ∧
    (((∃ value, t.toQueryValue = .ok value) → ∃ limit, t.duration = .ok limit) ↔
      ¬ t.IsOnlyTold) ∧
    ∀ text, isDaemonSyntax text = true ↔ ∃ parts, parts ≠ [] ∧ (∀ p ∈ parts, p.IsWritten) ∧
      text = parts.flatMap ToldPart.chars := by
  refine ⟨fun ⟨limit, h⟩ => exists_toQueryValue h, ?_, fun _ => isDaemonSyntax_iff⟩
  by_cases ht : t.IsToldAsWritten
  · cases t with
    | millis n => exact ht.elim
    | text s =>
      have htold : ∃ value, (text s).toQueryValue = .ok value := ⟨Text.trim s, if_pos ht⟩
      rw [← exists_duration_iff_not_isOnlyTold ht]
      exact ⟨fun h => h htold, fun h _ => h⟩
  · refine iff_of_true (fun ⟨value, h⟩ => exists_duration_of_toQueryValue ht h) fun honly => ht ?_
    cases t with
    | millis n => exact honly
    | text s =>
      obtain ⟨parts, hne, hparts, htext, -⟩ := honly
      exact isDaemonSyntax_iff.2 ⟨parts, hne, hparts, htext⟩

/-- The letter mu, digits of another script and a point at the end of a number are taken by the
daemon's syntax, which is told as it is written, but no duration is read from them. -/
theorem told_alone :
    (text "5μs").toQueryValue = .ok "5μs" ∧
      (text "5μs").duration = .error (.configuration (.duration "5μs")) ∧
    (text "٣s").toQueryValue = .ok "٣s" ∧
      (text "٣s").duration = .error (.configuration (.duration "٣s")) ∧
    (text "1.s").toQueryValue = .ok "1.s" ∧
      (text "1.s").duration = .error (.configuration (.duration "1.s")) := by
  decide +kernel

end Timeout

end DaemonRpc

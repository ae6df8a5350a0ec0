import DaemonRpc.Proofs.Duration.Milliseconds

/-!
# The texts that denote a duration

The grammar of durations, said of whole texts and without a reader: a number of milliseconds
(`Denotes.millis`), or parts that follow each other with nothing but blanks inside and between them
(`Denotes.parts`). A part is a number and a unit, a number is ASCII digits with an optional point, a
unit is spelled in either case.

`readParts` reads exactly these parts (`readParts_eq_some_iff`), from left to right and with the
longest unit each. No other split into parts is possible (`Parts.unique`), since a part begins with
a digit or a point, which no unit holds.
-/

namespace DaemonRpc

namespace Duration

/-! ## The grammar -/

/-- All characters are ASCII digits. -/
def AllDigits (text : List Char) : Prop := ∀ c ∈ text, Text.isDigit c = true

/-- All characters are blanks. -/
def AllBlank (text : List Char) : Prop := ∀ c ∈ text, Text.isBlank c = true

/-- What a unit is called, in lower case. -/
def TimeUnit.names : TimeUnit → List (List Char)
  | .nanosecond => [['n', 's']]
  | .microsecond => [['u', 's'], ['µ', 's']]
  | .millisecond => [['m', 's']]
  | .second => [['s']]
  | .minute => [['m']]
  | .hour => [['h']]
  | .day => [['d']]

/-- The text is a name of the unit, its ASCII letters in either case. -/
def TimeUnit.IsSpelled (unit : TimeUnit) (text : List Char) : Prop :=
  text.map Text.lowerAscii ∈ unit.names

/-- The text writes the number: digits, or a point between digits of which the first ones may be
left out. -/
inductive Numeral.IsWritten : Numeral → List Char → Prop where
  | whole {digits : List Char} (hne : digits ≠ []) (hdigits : AllDigits digits) :
    IsWritten ⟨digits, []⟩ digits
  | decimal {whole fraction : List Char} (hne : fraction ≠ []) (hwhole : AllDigits whole)
    (hfraction : AllDigits fraction) : IsWritten ⟨whole, fraction⟩ (whole ++ '.' :: fraction)

/-- The text writes the part: a number, blanks and a unit. -/
def Part.IsWritten (part : Part) (text : List Char) : Prop :=
  ∃ number blanks unit, text = number ++ (blanks ++ unit) ∧
    part.numeral.IsWritten number ∧ AllBlank blanks ∧ part.unit.IsSpelled unit

/-- The text is these parts, with blanks between them and nothing else. -/
inductive Parts : List Part → List Char → Prop where
  | last {part : Part} {text : List Char} (hpart : part.IsWritten text) : Parts [part] text
  | cons {part : Part} {parts : List Part} {text blanks rest : List Char}
    (hpart : part.IsWritten text) (hblanks : AllBlank blanks) (hrest : Parts parts rest) :
    Parts (part :: parts) (text ++ (blanks ++ rest))

/-- The text, without blanks around it, denotes the duration. -/
inductive Denotes : List Char → Duration → Prop where
  | millis {sign digits : List Char} (hsign : sign = [] ∨ sign = ['+']) (hne : digits ≠ [])
    (hdigits : AllDigits digits) (hlt : Nat.ofDigitChars 10 digits 0 < 2 ^ 64) :
    Denotes (sign ++ digits) (.ofMillis (Nat.ofDigitChars 10 digits 0))
  | parts {parts : List Part} {text : List Char} {total : Binary64} (hparts : Parts parts text)
    (hsum : sumParts parts = some total) (hlt : total.toRat < 2 ^ 64) :
    Denotes text ⟨divRoundEven (total.num * 1000000000) total.den⟩

variable {text rest number unit blanks : List Char} {numeral : Numeral} {u : TimeUnit}
  {part : Part} {parts : List Part}

/-! ## Numbers -/

theorem Numeral.IsWritten.ne_nil (h : numeral.IsWritten number) : number ≠ [] := by
  cases h with
  | whole hne => exact hne
  | decimal => simp

/-- A number begins with a digit or a point. -/
theorem Numeral.IsWritten.head (h : numeral.IsWritten number) {c : Char}
    (hc : number.head? = some c) : Text.isDigit c = true ∨ c = '.' := by
  cases h with
  | whole hne hdigits => exact .inl (hdigits c (List.mem_of_head? hc))
  | @decimal whole fraction hne hwhole hfraction =>
    cases whole with
    | nil => exact .inr (Option.some.inj hc).symm
    | cons d whole =>
      obtain rfl := Option.some.inj hc
      exact .inl (hwhole d List.mem_cons_self)

/-- What is read as a number is written as one. -/
theorem exists_of_readNumeral (h : readNumeral text = some (numeral, rest)) :
    ∃ number, text = number ++ rest ∧ numeral.IsWritten number := by
  have hsplit := (List.takeWhile_append_dropWhile (p := Text.isDigit) (l := text)).symm
  have hdigits : AllDigits (text.takeWhile Text.isDigit) := fun c => List.mem_takeWhile_imp
  simp only [readNumeral] at h
  split at h
  · next more hmore =>
    have hsplit' := (List.takeWhile_append_dropWhile (p := Text.isDigit) (l := more)).symm
    have hdigits' : AllDigits (more.takeWhile Text.isDigit) := fun c => List.mem_takeWhile_imp
    split at h
    · -- No digit stands behind the point, so the number ends before it.
      obtain ⟨hne, h⟩ := Option.ite_none_left_eq_some.1 h
      obtain ⟨rfl, rfl⟩ := Prod.mk.inj (Option.some.inj h)
      exact ⟨_, hsplit, .whole (by simpa using hne) hdigits⟩
    · next hne =>
      obtain ⟨rfl, rfl⟩ := Prod.mk.inj (Option.some.inj h)
      refine ⟨_, ?_, .decimal (by simpa using hne) hdigits hdigits'⟩
      rw [List.append_assoc, List.cons_append, ← hsplit', ← hmore, ← hsplit]
  · obtain ⟨hne, h⟩ := Option.ite_none_left_eq_some.1 h
    obtain ⟨rfl, rfl⟩ := Prod.mk.inj (Option.some.inj h)
    exact ⟨_, hsplit, .whole (by simpa using hne) hdigits⟩

/-- The text goes on with neither a digit nor a point, so a number ends before it. -/
def EndsNumeral (rest : List Char) : Prop :=
  ∀ c, rest.head? = some c → Text.isDigit c = false ∧ c ≠ '.'

/-- What satisfies `p` is taken up to what goes on without. -/
theorem span_append {p : Char → Bool} {taken : List Char} (h : ∀ c ∈ taken, p c = true)
    (hrest : ∀ c, rest.head? = some c → p c = false) :
    (taken ++ rest).takeWhile p = taken ∧ (taken ++ rest).dropWhile p = rest := by
  rw [List.takeWhile_append_of_pos h, List.dropWhile_append_of_pos h]
  cases rest with
  | nil => simp
  | cons c rest => simp [hrest c rfl]

/-- A run ends at the first character that does not belong to it. -/
theorem span_append_cons {p : Char → Bool} {taken : List Char} (h : ∀ c ∈ taken, p c = true)
    {stop : Char} (hend : p stop = false) (rest : List Char) :
    (taken ++ stop :: rest).takeWhile p = taken ∧
      (taken ++ stop :: rest).dropWhile p = stop :: rest :=
  span_append h fun _ hc => Option.some.inj hc ▸ hend

/-- A number that is written is read. -/
theorem Numeral.IsWritten.read (h : numeral.IsWritten number) (hrest : EndsNumeral rest) :
    readNumeral (number ++ rest) = some (numeral, rest) := by
  cases h with
  | whole hne hdigits =>
    obtain ⟨htake, hdrop⟩ := span_append hdigits fun c hc => (hrest c hc).1
    have hempty : number.isEmpty = false := by simpa using hne
    simp only [readNumeral, htake, hdrop, hempty]
    split
    · exact absurd rfl (hrest '.' rfl).2
    · rfl
  | @decimal whole fraction hne hwhole hfraction =>
    obtain ⟨htake, hdrop⟩ := span_append_cons hwhole (by decide : Text.isDigit '.' = false)
      (fraction ++ rest)
    obtain ⟨htake', hdrop'⟩ := span_append hfraction fun c hc => (hrest c hc).1
    have hempty : fraction.isEmpty = false := by simpa using hne
    rw [List.append_assoc, List.cons_append]
    simp only [readNumeral, htake, hdrop, htake', hdrop', hempty, Bool.false_eq_true, if_false]

/-! ## Units -/

/-- The character is a blank, a digit, a point or a plus sign. No unit holds one. -/
def isNoUnit (c : Char) : Bool := Text.isBlank c || Text.isDigit c || c == '.' || c == '+'

theorem isNoUnit_eq_false_iff {c : Char} :
    isNoUnit c = false ↔
      Text.isBlank c = false ∧ Text.isDigit c = false ∧ c ≠ '.' ∧ c ≠ '+' := by
  simp [isNoUnit, and_assoc]

/-- Such a character has no other case. -/
theorem lowerAscii_of_isNoUnit {c : Char} (h : isNoUnit c = true) : Text.lowerAscii c = c := by
  refine if_neg fun hc => ?_
  have hlow : 'A'.toNat ≤ c.toNat := hc.1
  have hhigh : c.toNat ≤ 'Z'.toNat := hc.2
  have hA : 'A'.toNat = 65 := rfl
  have hZ : 'Z'.toNat = 90 := rfl
  simp only [isNoUnit, Bool.or_eq_true, beq_iff_eq] at h
  rcases h with ((h | h) | rfl) | rfl
  · simp only [Text.isBlank, Bool.or_eq_true, Bool.and_eq_true, decide_eq_true_eq, beq_iff_eq] at h
    omega
  · have hdigit : c.toNat ≤ '9'.toNat := (of_decide_eq_true h).2
    have h9 : '9'.toNat = 57 := rfl
    omega
  · exact absurd hlow (by decide)
  · exact absurd hlow (by decide)

/-- What is read as a unit is spelled as one. -/
theorem exists_of_readUnit (h : readUnit text = some (u, rest)) :
    ∃ unit, text = unit ++ rest ∧ u.IsSpelled unit := by
  have hlen : ((text.take 2).map Text.lowerAscii).length ≤ 2 := by simp
  have hone : (text.take 1).map Text.lowerAscii =
      ((text.take 2).map Text.lowerAscii).take 1 := by
    rw [← List.map_take, List.take_take]
    rfl
  simp only [readUnit] at h
  -- One case for each name, the longer ones first.
  split at h
  case h_9 => cases h
  all_goals
    next heq =>
      obtain ⟨rfl, rfl⟩ := Prod.mk.inj (Option.some.inj h)
      rw [heq] at hlen hone
      refine ⟨_, (List.take_append_drop _ text).symm, ?_⟩
      simp_all [TimeUnit.IsSpelled, TimeUnit.names]

/-- The text goes on with no `s`, so it makes no longer unit of what stands before it. -/
def EndsUnit (rest : List Char) : Prop :=
  ∀ c, rest.head? = some c → Text.lowerAscii c ≠ 's'

/-- A unit that is spelled is read, if the text does not go on to spell a longer one. -/
theorem TimeUnit.IsSpelled.read (h : u.IsSpelled unit) (hrest : EndsUnit rest) :
    readUnit (unit ++ rest) = some (u, rest) := by
  simp only [TimeUnit.IsSpelled] at h
  match unit, h with
  | [], h => cases u <;> simp [TimeUnit.names] at h
  | [a], h =>
    cases rest with
    | nil => cases u <;> simp_all [TimeUnit.names, readUnit]
    | cons c rest =>
      have hc : Text.lowerAscii c ≠ 's' := hrest c rfl
      cases u <;> simp_all [TimeUnit.names, readUnit]
  | [a, b], h =>
    cases u with
    | microsecond =>
      -- This unit has two names.
      rcases List.mem_pair.1 h with h | h <;> simp_all [readUnit]
    | _ => simp_all [TimeUnit.names, readUnit]
  | a :: b :: c :: more, h => cases u <;> simp [TimeUnit.names] at h

theorem TimeUnit.IsSpelled.ne_nil (h : u.IsSpelled unit) : unit ≠ [] := by
  rintro rfl
  cases u <;> simp [TimeUnit.IsSpelled, TimeUnit.names] at h

/-- The letters of units, in lower case. -/
def unitLetters : List Char := ['n', 'u', 'µ', 'm', 's', 'h', 'd']

/-- What is checked for each of the letters holds of them. -/
theorem forall_unitLetters {p : Char → Prop} [DecidablePred p]
    (h : unitLetters.all (fun c => decide (p c)) = true) : ∀ c ∈ unitLetters, p c :=
  fun c hc => of_decide_eq_true (List.all_eq_true.1 h c hc)

theorem TimeUnit.IsSpelled.letters (h : u.IsSpelled unit) {c : Char} (hc : c ∈ unit) :
    Text.lowerAscii c ∈ unitLetters := by
  have hnames : u.names.all (fun name => name.all unitLetters.contains) = true := by
    cases u <;> decide
  have hletter := List.all_eq_true.1 (List.all_eq_true.1 hnames _ h) _ (List.mem_map_of_mem hc)
  exact List.contains_iff_mem.1 hletter

/-- A letter of a unit, in either case, is no character that no unit holds. -/
theorem isNoUnit_of_unitLetter {c : Char} (h : Text.lowerAscii c ∈ unitLetters) :
    isNoUnit c = false := by
  by_contra hno
  rw [Bool.not_eq_false] at hno
  rw [lowerAscii_of_isNoUnit hno] at h
  have hletters : ∀ c ∈ unitLetters, isNoUnit c = false := forall_unitLetters (by decide)
  rw [hletters c h] at hno
  cases hno

/-- A unit begins with a letter. -/
theorem TimeUnit.IsSpelled.head (h : u.IsSpelled unit) {c : Char}
    (hc : (unit ++ rest).head? = some c) : isNoUnit c = false := by
  rw [List.head?_append_of_ne_nil _ h.ne_nil] at hc
  exact isNoUnit_of_unitLetter (h.letters (List.mem_of_head? hc))

/-! ## Parts -/

/-- The text, unless it is empty, begins with a digit or a point, as a part does. -/
def StartsPart (text : List Char) : Prop :=
  ∀ c, text.head? = some c → Text.isDigit c = true ∨ c = '.'

theorem StartsPart.isBlank (h : StartsPart text) {c : Char} (hc : text.head? = some c) :
    Text.isBlank c = false := by
  rcases h c hc with hdigit | rfl
  · exact Text.isBlank_of_isDigit hdigit
  · decide

/-- Blanks are skipped up to the first other character. -/
theorem skipBlanks_append (hblanks : AllBlank blanks)
    (hrest : ∀ c, rest.head? = some c → Text.isBlank c = false) :
    skipBlanks (blanks ++ rest) = rest :=
  (span_append hblanks hrest).2

theorem Part.IsWritten.ne_nil (h : part.IsWritten text) : text ≠ [] := by
  obtain ⟨number, blanks, unit, rfl, hnumber, -, -⟩ := h
  simp [hnumber.ne_nil]

theorem Part.IsWritten.startsPart (h : part.IsWritten text) (rest : List Char) :
    StartsPart (text ++ rest) := by
  obtain ⟨number, blanks, unit, rfl, hnumber, -, -⟩ := h
  intro c hc
  rw [List.append_assoc, List.head?_append_of_ne_nil _ hnumber.ne_nil] at hc
  exact hnumber.head hc

theorem Parts.ne_nil (h : Parts parts text) : text ≠ [] := by
  cases h with
  | last hpart => exact hpart.ne_nil
  | cons hpart => simp [hpart.ne_nil]

theorem Parts.startsPart (h : Parts parts text) : StartsPart text := by
  cases h with
  | last hpart => simpa using hpart.startsPart []
  | cons hpart => exact hpart.startsPart _

/-- What is read as a part is written as one, with blanks behind it. -/
theorem exists_of_readPart (h : readPart text = some (part, rest)) :
    ∃ written blanks, text = written ++ (blanks ++ rest) ∧ part.IsWritten written ∧
      AllBlank blanks := by
  simp only [readPart, Option.bind_eq_bind, Option.bind_eq_some_iff, Prod.exists, Option.pure_def,
    Option.some.injEq, Prod.mk.injEq] at h
  obtain ⟨numeral, afterNumeral, hnumeral, u, afterUnit, hunit, rfl, rfl⟩ := h
  obtain ⟨number, rfl, hnumber⟩ := exists_of_readNumeral hnumeral
  obtain ⟨unit, hunit, hspelled⟩ := exists_of_readUnit hunit
  have hblanks := (List.takeWhile_append_dropWhile (p := Text.isBlank) (l := afterNumeral)).symm
  have hbehind := (List.takeWhile_append_dropWhile (p := Text.isBlank) (l := afterUnit)).symm
  rw [← skipBlanks, hunit] at hblanks
  refine ⟨number ++ (afterNumeral.takeWhile Text.isBlank ++ unit),
    afterUnit.takeWhile Text.isBlank, ?_, ⟨number, _, unit, rfl, hnumber, ?_, hspelled⟩, ?_⟩
  · rw [skipBlanks, ← hbehind, List.append_assoc, List.append_assoc, ← hblanks]
  · exact fun c => List.mem_takeWhile_imp
  · exact fun c => List.mem_takeWhile_imp

/-- Behind a number neither blanks nor a unit go on with it. -/
theorem TimeUnit.IsSpelled.endsNumeral (h : u.IsSpelled unit) (hblanks : AllBlank blanks)
    (rest : List Char) : EndsNumeral (blanks ++ (unit ++ rest)) := by
  intro c hc
  cases blanks with
  | nil =>
    obtain ⟨-, hdigit, hpoint, -⟩ := isNoUnit_eq_false_iff.1 (h.head hc)
    exact ⟨hdigit, hpoint⟩
  | cons b blanks =>
    obtain rfl := Option.some.inj hc
    have hblank := hblanks b List.mem_cons_self
    constructor
    · by_contra hdigit
      rw [Bool.not_eq_false] at hdigit
      rw [Text.isBlank_of_isDigit hdigit] at hblank
      cases hblank
    · rintro rfl
      exact absurd hblank (by decide)

/-- What may follow a unit makes it no longer one. -/
theorem StartsPart.endsUnit (h : StartsPart (skipBlanks rest)) : EndsUnit rest := by
  intro c hc
  have hno : isNoUnit c = true := by
    cases hblank : Text.isBlank c with
    | true => simp [isNoUnit, hblank]
    | false =>
      obtain ⟨more, rfl⟩ := List.head?_eq_some_iff.1 hc
      rcases h c (by simp [skipBlanks, hblank]) with hdigit | rfl <;> simp_all [isNoUnit]
  rw [lowerAscii_of_isNoUnit hno]
  rintro rfl
  exact absurd hno (by decide)

/-- A part that is written is read, with the blanks behind it. -/
theorem Part.IsWritten.read (h : part.IsWritten text) (hrest : StartsPart (skipBlanks rest)) :
    readPart (text ++ rest) = some (part, skipBlanks rest) := by
  obtain ⟨number, blanks, unit, rfl, hnumber, hblanks, hunit⟩ := h
  have hskip : skipBlanks (blanks ++ (unit ++ rest)) = unit ++ rest :=
    skipBlanks_append hblanks fun c hc => (isNoUnit_eq_false_iff.1 (hunit.head hc)).1
  rw [List.append_assoc, List.append_assoc, readPart, hnumber.read (hunit.endsNumeral hblanks _)]
  simp [hskip, hunit.read hrest.endsUnit]

/-! ## All parts -/

theorem readParts_eq_some_nil_iff : readParts text = some [] ↔ text = [] := by
  constructor
  · intro h
    rw [readParts] at h
    split at h
    · next hempty => simpa using hempty
    · split at h
      · cases h
      · simp at h
  · rintro rfl
    rw [readParts]
    rfl

theorem readParts_eq_some_cons_iff :
    readParts text = some (part :: parts) ↔
      ∃ rest, readPart text = some (part, rest) ∧ readParts rest = some parts := by
  constructor
  · intro h
    rw [readParts] at h
    split at h
    · cases h
    · split at h
      · cases h
      · next first rest hfirst =>
        obtain ⟨more, hmore, hcons⟩ := Option.map_eq_some_iff.1 h
        obtain ⟨rfl, rfl⟩ := List.cons.inj hcons
        exact ⟨rest, hfirst, hmore⟩
  · rintro ⟨rest, hpart, hparts⟩
    rw [readParts_of_readPart hpart, hparts]
    rfl

/-- What is read are the parts of the text, if it does not end with a blank. -/
theorem parts_of_readParts (hne : text ≠ [])
    (hlast : ∀ c, text.getLast? = some c → Text.isBlank c = false)
    (h : readParts text = some parts) : Parts parts text := by
  induction parts generalizing text with
  | nil => exact absurd (readParts_eq_some_nil_iff.1 h) hne
  | cons part parts ih =>
    obtain ⟨rest, hpart, hrest⟩ := readParts_eq_some_cons_iff.1 h
    obtain ⟨written, blanks, rfl, hwritten, hblanks⟩ := exists_of_readPart hpart
    rcases eq_or_ne rest [] with rfl | hmore
    · have hnone := readParts_eq_some_nil_iff.2 (rfl : ([] : List Char) = [])
      obtain rfl : parts = [] := Option.some.inj (hrest.symm.trans hnone)
      rcases eq_or_ne blanks [] with rfl | hbehind
      · simpa using Parts.last hwritten
      · -- Blanks behind the last part would end the text.
        exfalso
        obtain ⟨c, hc⟩ := Option.isSome_iff_exists.1 (List.getLast?_isSome.2 hbehind)
        have hblank := hblanks c (List.mem_of_getLast? hc)
        rw [hlast c (by simp [List.getLast?_append, hc])] at hblank
        cases hblank
    · refine .cons hwritten hblanks (ih hmore (fun c hc => hlast c ?_) hrest)
      simp [List.getLast?_append, hc]

/-- The parts of a text are read. -/
theorem Parts.read (h : Parts parts text) : readParts text = some parts := by
  induction h with
  | @last part text hpart =>
    have hread : readPart (text ++ []) = some (part, []) :=
      hpart.read (by simp [StartsPart, skipBlanks])
    rw [List.append_nil] at hread
    exact readParts_eq_some_cons_iff.2 ⟨[], hread, readParts_eq_some_nil_iff.2 rfl⟩
  | @cons part parts text blanks rest hpart hblanks hrest ih =>
    have hskip : skipBlanks (blanks ++ rest) = rest :=
      skipBlanks_append hblanks fun c => hrest.startsPart.isBlank
    have hread : readPart (text ++ (blanks ++ rest)) = some (part, skipBlanks (blanks ++ rest)) :=
      hpart.read (by rw [hskip]; exact hrest.startsPart)
    rw [hskip] at hread
    exact readParts_eq_some_cons_iff.2 ⟨rest, hread, ih⟩

/-- A text is parts in one way only, so each unit is the longest that can be read. -/
theorem Parts.unique {others : List Part} (h : Parts parts text) (h' : Parts others text) :
    parts = others :=
  Option.some.inj (h.read.symm.trans h'.read)

/-! ## Numbers of milliseconds -/

/-- A sign and digits that denote a number below the limit are read as this number. -/
theorem natBelow_eq_some_iff {limit n : Nat} :
    Text.natBelow limit text = some n ↔
      ∃ sign digits, (sign = [] ∨ sign = ['+']) ∧ digits ≠ [] ∧ AllDigits digits ∧
        text = sign ++ digits ∧ Nat.ofDigitChars 10 digits 0 = n ∧ n < limit := by
  have hread : ∀ digits : List Char,
      (if digits.isEmpty then none else (Text.decimalValue digits).filter (· < limit)) = some n ↔
        digits ≠ [] ∧ AllDigits digits ∧ Nat.ofDigitChars 10 digits 0 = n ∧ n < limit := by
    intro digits
    rw [Option.ite_none_left_eq_some, List.isEmpty_iff, Option.filter_eq_some_iff,
      decide_eq_true_eq]
    by_cases hdigits : AllDigits digits
    · simp [Text.decimalValue_of_forall hdigits, hdigits]
    · have hnone : Text.decimalValue digits = none := by
        simp only [AllDigits, not_forall, Bool.not_eq_true] at hdigits
        obtain ⟨c, hc, hno⟩ := hdigits
        exact Text.decimalValue_eq_none hc (if_neg (of_decide_eq_false hno))
      simp [hnone, hdigits]
  unfold Text.natBelow
  extract_lets digits
  rw [hread]
  unfold digits
  split
  · next rest =>
    constructor
    · rintro ⟨hne, hdigits, hvalue, hlt⟩
      exact ⟨['+'], rest, .inr rfl, hne, hdigits, rfl, hvalue, hlt⟩
    · rintro ⟨sign, digits, rfl | rfl, hne, hdigits, heq, hvalue, hlt⟩
      · -- A plus sign is no digit.
        rw [List.nil_append] at heq
        exact absurd (hdigits '+' (heq ▸ List.mem_cons_self)) (by decide)
      · obtain rfl : rest = digits := (List.cons.inj heq).2
        exact ⟨hne, hdigits, hvalue, hlt⟩
  · next hplus =>
    constructor
    · rintro ⟨hne, hdigits, hvalue, hlt⟩
      exact ⟨[], text, .inl rfl, hne, hdigits, rfl, hvalue, hlt⟩
    · rintro ⟨sign, digits, rfl | rfl, hne, hdigits, rfl, hvalue, hlt⟩
      · exact ⟨hne, hdigits, hvalue, hlt⟩
      · exact absurd rfl (hplus digits)

/-- Parts are no bare number, since a unit holds neither a digit nor a sign. -/
theorem Parts.natBelow (h : Parts parts text) (limit : Nat) :
    Text.natBelow limit text = none := by
  -- The first letter of a unit stops the reading of a bare number.
  have hpart : ∀ {part : Part} {text : List Char}, part.IsWritten text →
      ∃ c ∈ text, isNoUnit c = false := by
    rintro part text ⟨number, blanks, unit, rfl, -, -, hunit⟩
    obtain ⟨c, more, rfl⟩ := List.exists_cons_of_ne_nil hunit.ne_nil
    have hfirst : (c :: more ++ ([] : List Char)).head? = some c := rfl
    exact ⟨c, by simp, hunit.head hfirst⟩
  obtain ⟨c, hc, hno⟩ : ∃ c ∈ text, isNoUnit c = false := by
    cases h with
    | last hwritten => exact hpart hwritten
    | cons hwritten =>
      obtain ⟨c, hc, hno⟩ := hpart hwritten
      exact ⟨c, List.mem_append_left _ hc, hno⟩
  obtain ⟨-, hdigit, -, hplus⟩ := isNoUnit_eq_false_iff.1 hno
  exact Text.natBelow_eq_none hc hplus (if_neg (of_decide_eq_false hdigit))

/-! ## Whole texts -/

/-- What is read from parts: the span nearest to their sum, if that is below `2 ^ 64` seconds. -/
theorem bind_ofFloatSeconds_eq_some_iff {d : Duration} :
    (sumParts parts).bind ofFloatSeconds = some d ↔
      ∃ total, sumParts parts = some total ∧ total.toRat < 2 ^ 64 ∧
        d = ⟨divRoundEven (total.num * 1000000000) total.den⟩ := by
  rw [Option.bind_eq_some_iff]
  refine exists_congr fun total => and_congr_right fun _ => ?_
  have hsize : total.num / total.den < UInt64.size ↔ total.toRat < 2 ^ 64 := by
    rw [Binary64.toRat_lt_iff, UInt64.size]
    norm_num
  rw [ofFloatSeconds, Option.ite_none_right_eq_some, hsize, Option.some.injEq, eq_comm]

theorem Parts.ofChars (h : Parts parts text) :
    Duration.ofChars text = (sumParts parts).bind ofFloatSeconds := by
  rw [Duration.ofChars, h.natBelow, h.read]
  cases h <;> rfl

/-- The reader finds what a text denotes, if the text does not end with a blank. -/
theorem ofChars_eq_some_iff {d : Duration}
    (hlast : ∀ c, text.getLast? = some c → Text.isBlank c = false) :
    ofChars text = some d ↔ Denotes text d := by
  constructor
  · intro h
    rw [ofChars] at h
    split at h
    · next n hn =>
      obtain rfl := Option.some.inj h
      obtain ⟨sign, digits, hsign, hne, hdigits, rfl, rfl, hlt⟩ := natBelow_eq_some_iff.1 hn
      exact .millis hsign hne hdigits hlt
    · split at h
      · cases h
      · cases h
      · next parts hnil hparts =>
        obtain ⟨total, hsum, hlt, rfl⟩ := bind_ofFloatSeconds_eq_some_iff.1 h
        refine .parts (parts_of_readParts ?_ hlast hparts) hsum hlt
        rintro rfl
        obtain rfl := Option.some.inj (hparts.symm.trans (readParts_eq_some_nil_iff.2 rfl))
        exact hnil rfl
  · rintro (⟨hsign, hne, hdigits, hlt⟩ | ⟨hparts, hsum, hlt⟩)
    · have hn : Text.natBelow UInt64.size _ = some _ :=
        natBelow_eq_some_iff.2 ⟨_, _, hsign, hne, hdigits, rfl, rfl, hlt⟩
      rw [ofChars, hn]
    · rw [hparts.ofChars]
      exact bind_ofFloatSeconds_eq_some_iff.2 ⟨_, hsum, hlt, rfl⟩

end Duration

end DaemonRpc

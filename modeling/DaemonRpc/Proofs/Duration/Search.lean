import DaemonRpc.Proofs.Duration.Language
import DaemonRpc.Text.DecimalDigit

/-!
# Durations found by search

Another way to the same durations: parts are not read one behind the other but searched for,
wherever in the text the next one begins. A part that is found may have digits of any script and
letters that differ from those of a unit by case only, as `ſ` from `s`. Only after that the number
and the unit are looked at, and what was skipped must be blank. `search_eq_ofChars` says that
nothing is gained or lost in this way.

`matchesAt` lists the ways in which a part can begin a text, in the order in which they are tried:
longer runs before shorter ones, and the names of units in the order of `unitNames`.
-/

namespace DaemonRpc

namespace Duration

/-! ## Searching -/

/-- What is taken from a text and what is left of it. -/
abbrev Taken := List Char × List Char

/-- The ways to take at least one character of a class. -/
def takeSome (p : Char → Bool) : List Char → List Taken
  | [] => []
  | c :: rest =>
    if p c then (takeSome p rest).map (fun way => (c :: way.1, way.2)) ++ [([c], rest)] else []

/-- The ways to take a point and digits of any script. -/
def takeFraction : List Char → List Taken
  | '.' :: rest => (takeSome Text.isDecimalDigit rest).map fun way => ('.' :: way.1, way.2)
  | _ => []

/-- The ways to take a number. -/
def takeNumber (text : List Char) : List Taken :=
  ((takeSome Text.isDecimalDigit text).flatMap fun whole =>
    (takeFraction whole.2).map (fun way => (whole.1 ++ way.1, way.2)) ++ [whole]) ++
  takeFraction text

/-- The letter of a unit from which a character differs by case only. -/
def foldCase (c : Char) : Char :=
  if c = 'ſ' then 's' else if c = 'μ' ∨ c = 'Μ' then 'µ' else Text.lowerAscii c

/-- Take letters, in any case. -/
def takeLetters : List Char → List Char → Option Taken
  | [], text => some ([], text)
  | _ :: _, [] => none
  | letter :: letters, c :: rest =>
    if foldCase c = letter then (takeLetters letters rest).map fun way => (c :: way.1, way.2)
    else none

/-- The names of units, in the order in which they are tried. -/
def unitNames : List (List Char) :=
  [['n', 's'], ['u', 's'], ['µ', 's'], ['m', 's'], ['s'], ['m'], ['h'], ['d']]

/-- A part that was found, and the text behind it. -/
structure Match where
  /-- The text of the number. -/
  number : List Char
  /-- The text of the unit. -/
  unit : List Char
  /-- What follows. -/
  rest : List Char

/-- The ways in which a part can begin a text. -/
def matchesAt (text : List Char) : List Match :=
  (takeNumber text).flatMap fun number =>
    (takeSome Text.isBlank number.2 ++ [([], number.2)]).flatMap fun blanks : Taken =>
      (unitNames.filterMap fun name => takeLetters name blanks.2).map fun unit : Taken =>
        ⟨number.1, unit.1, unit.2⟩

/-- The first part in a text, with the text before it. -/
def find : List Char → Option (List Char × Match)
  | [] => none
  | c :: rest =>
    match (matchesAt (c :: rest)).head? with
    | some found => some ([], found)
    | none => (find rest).map fun (gap, found) => (c :: gap, found)

/-- The number that a text of ASCII digits with at most one point denotes. -/
def numeral? (number : List Char) : Option Numeral :=
  let whole := number.takeWhile (· != '.')
  let fraction := (number.dropWhile (· != '.')).drop 1
  if (whole ++ fraction).all Text.isDigit then some ⟨whole, fraction⟩ else none

/-- A letter of a unit in lower case. The letter mu stays one, and is no micro sign. -/
def lowerCase (c : Char) : Char := if c = 'Μ' then 'μ' else Text.lowerAscii c

/-- The unit that a text names, once it is in lower case. -/
def unit? (unit : List Char) : Option TimeUnit :=
  [TimeUnit.nanosecond, .microsecond, .millisecond, .second, .minute, .hour, .day].find? fun u =>
    unit.map lowerCase ∈ u.names

variable {text rest number unit blanks gap : List Char} {numeral : Numeral} {u : TimeUnit}
  {part : Part} {parts : List Part} {p : Char → Bool} {way : Taken} {found : Match}

/-! ## What is found -/

theorem mem_takeSome (h : way ∈ takeSome p text) :
    text = way.1 ++ way.2 ∧ way.1 ≠ [] ∧ ∀ c ∈ way.1, p c = true := by
  induction text generalizing way with
  | nil => cases h
  | cons c text ih =>
    rw [takeSome] at h
    split at h
    · next hc =>
      rcases List.mem_append.1 h with h | h
      · obtain ⟨shorter, hshorter, rfl⟩ := List.mem_map.1 h
        obtain ⟨rfl, -, hall⟩ := ih hshorter
        exact ⟨rfl, by simp, List.forall_mem_cons.2 ⟨hc, hall⟩⟩
      · obtain rfl := List.mem_singleton.1 h
        exact ⟨rfl, by simp, by simpa using hc⟩
    · cases h

theorem mem_takeFraction (h : way ∈ takeFraction text) :
    text = way.1 ++ way.2 ∧ ∃ fraction, way.1 = '.' :: fraction ∧ fraction ≠ [] ∧
      ∀ c ∈ fraction, Text.isDecimalDigit c = true := by
  unfold takeFraction at h
  split at h
  · obtain ⟨digits, hdigits, rfl⟩ := List.mem_map.1 h
    obtain ⟨rfl, hne, hall⟩ := mem_takeSome hdigits
    exact ⟨rfl, digits.1, rfl, hne, hall⟩
  · cases h

/-- A number that is found is digits, or a point with digits behind it and perhaps before it. -/
theorem mem_takeNumber (h : way ∈ takeNumber text) :
    text = way.1 ++ way.2 ∧ ∃ whole, (∀ c ∈ whole, Text.isDecimalDigit c = true) ∧
      ((way.1 = whole ∧ whole ≠ []) ∨ ∃ fraction, way.1 = whole ++ '.' :: fraction ∧
        fraction ≠ [] ∧ ∀ c ∈ fraction, Text.isDecimalDigit c = true) := by
  rcases List.mem_append.1 h with h | h
  · obtain ⟨whole, hwhole, hway⟩ := List.mem_flatMap.1 h
    obtain ⟨rfl, hne, hall⟩ := mem_takeSome hwhole
    rcases List.mem_append.1 hway with hway | hway
    · obtain ⟨tail, htail, rfl⟩ := List.mem_map.1 hway
      obtain ⟨hrest, fraction, hpoint, hfraction⟩ := mem_takeFraction htail
      refine ⟨?_, whole.1, hall, .inr ⟨fraction, by rw [hpoint], hfraction⟩⟩
      rw [List.append_assoc, ← hrest]
    · obtain rfl := List.mem_singleton.1 hway
      exact ⟨rfl, _, hall, .inl ⟨rfl, hne⟩⟩
  · obtain ⟨hrest, fraction, hpoint, hfraction⟩ := mem_takeFraction h
    exact ⟨hrest, [], by simp, .inr ⟨fraction, hpoint, hfraction⟩⟩

theorem append_of_takeLetters {letters : List Char} (h : takeLetters letters text = some way) :
    text = way.1 ++ way.2 := by
  fun_induction takeLetters letters text generalizing way with
  | case1 text => obtain rfl := Option.some.inj h; rfl
  | case2 => cases h
  | case3 letters c rest ih =>
    obtain ⟨more, hmore, rfl⟩ := Option.map_eq_some_iff.1 h
    exact congrArg (c :: ·) (ih hmore)
  | case4 => cases h

/-- Where a part is found, its number, blanks and its unit stand one behind the other. -/
theorem mem_matchesAt (h : found ∈ matchesAt text) :
    ∃ blanks, text = found.number ++ (blanks ++ (found.unit ++ found.rest)) ∧ AllBlank blanks ∧
      ∃ rest, (found.number, rest) ∈ takeNumber text := by
  obtain ⟨number, hnumber, h⟩ := List.mem_flatMap.1 h
  obtain ⟨blanks, hblanks, h⟩ := List.mem_flatMap.1 h
  obtain ⟨unit, hunit, rfl⟩ := List.mem_map.1 h
  obtain ⟨name, -, hname⟩ := List.mem_filterMap.1 hunit
  have hrest : number.2 = blanks.1 ++ blanks.2 ∧ AllBlank blanks.1 := by
    rcases List.mem_append.1 hblanks with h | h
    · exact ⟨(mem_takeSome h).1, (mem_takeSome h).2.2⟩
    · obtain rfl := List.mem_singleton.1 h
      exact ⟨rfl, by simp [AllBlank]⟩
  refine ⟨blanks.1, ?_, hrest.2, number.2, hnumber⟩
  rw [(mem_takeNumber hnumber).1, hrest.1, append_of_takeLetters hname]

theorem append_of_find (h : find text = some (gap, found)) :
    ∃ begun, text = gap ++ begun ∧ (matchesAt begun).head? = some found := by
  induction text generalizing gap with
  | nil => cases h
  | cons c text ih =>
    rw [find] at h
    split at h
    · next first hfirst =>
      obtain ⟨rfl, rfl⟩ := Prod.mk.inj (Option.some.inj h)
      exact ⟨_, rfl, hfirst⟩
    · obtain ⟨⟨shorter, other⟩, hother, heq⟩ := Option.map_eq_some_iff.1 h
      obtain ⟨rfl, rfl⟩ := Prod.mk.inj heq
      obtain ⟨begun, rfl, hbegun⟩ := ih hother
      exact ⟨begun, rfl, hbegun⟩

/-- Behind a part less is left than there was. -/
theorem length_of_find (h : find text = some (gap, found)) : found.rest.length < text.length := by
  obtain ⟨begun, rfl, hfound⟩ := append_of_find h
  obtain ⟨blanks, hbegun, -, rest, hnumber⟩ := mem_matchesAt (List.mem_of_head? hfound)
  have hne : found.number ≠ [] := by
    obtain ⟨-, whole, -, ⟨rfl, hne⟩ | ⟨fraction, hnumber, -⟩⟩ := mem_takeNumber hnumber
    · exact hne
    · simp_all
  have hpos := List.length_pos_iff.2 hne
  rw [hbegun]
  simp only [List.length_append]
  omega

/-- The parts of a text, each searched for behind the one before; nothing but blanks may be
skipped. -/
def scan (text : List Char) : Option (List Part) :=
  match h : find text with
  | none => if text.all Text.isBlank then some [] else none
  | some (gap, found) =>
    have := length_of_find h
    if gap.all Text.isBlank then do
      let numeral ← numeral? found.number
      let unit ← unit? found.unit
      let parts ← scan found.rest
      return ⟨numeral, unit⟩ :: parts
    else none
termination_by text.length

/-- The duration of a text whose parts are searched for. -/
def search (text : List Char) : Option Duration :=
  match Text.natBelow UInt64.size text with
  | some n => some (ofMillis n)
  | none =>
    match scan text with
    | none | some [] => none
    | some parts => (sumParts parts).bind ofFloatSeconds

/-! ## What is found is written -/

/-- Digits of any script below the first ones beyond ASCII are ASCII digits. -/
theorem isDecimalDigit_iff {c : Char} (h : c.toNat < 0x660) :
    Text.isDecimalDigit c = true ↔ Text.isDigit c = true := by
  have hzeros : ∀ first ∈ Text.digitZeros, first = 0x30 ∨ 0x660 ≤ first := by decide
  have hdigit : Text.isDigit c = true ↔ 48 ≤ c.toNat ∧ c.toNat ≤ 57 := decide_eq_true_iff
  simp only [Text.isDecimalDigit, List.any_eq_true, Bool.and_eq_true, decide_eq_true_eq, hdigit]
  constructor
  · rintro ⟨first, hfirst, hlow, hhigh⟩
    rcases hzeros first hfirst with rfl | hbeyond <;> omega
  · intro hc
    exact ⟨0x30, by decide, by omega, by omega⟩

theorem isDecimalDigit_of_isDigit {c : Char} (h : Text.isDigit c = true) :
    Text.isDecimalDigit c = true := by
  have hhigh : c.toNat ≤ 57 := (of_decide_eq_true h).2
  exact (isDecimalDigit_iff (by omega)).2 h

/-- A number that was found and denotes one is written in ASCII digits. -/
theorem isWritten_of_numeral? (hfound : (number, rest) ∈ takeNumber text)
    (h : numeral? number = some numeral) : numeral.IsWritten number := by
  have hpoint : ∀ c, Text.isDecimalDigit c = true → (c != '.') = true := by
    intro c hc
    rw [bne_iff_ne]
    rintro rfl
    exact absurd hc (by decide)
  obtain ⟨-, whole, hwhole, hnumber⟩ := mem_takeNumber hfound
  have hplain : ∀ c ∈ whole, (c != '.') = true := fun c hc => hpoint c (hwhole c hc)
  simp only [numeral?] at h
  obtain ⟨hdigits, h⟩ := Option.ite_none_right_eq_some.1 h
  obtain rfl := Option.some.inj h
  rcases hnumber with ⟨rfl, hne⟩ | ⟨fraction, rfl, hne, -⟩
  · have htake : number.takeWhile (· != '.') = number := List.takeWhile_eq_self_iff.2 hplain
    have hdrop : number.dropWhile (· != '.') = [] := List.dropWhile_eq_nil_iff.2 hplain
    rw [htake, hdrop] at hdigits ⊢
    exact .whole hne (by simpa [AllDigits] using hdigits)
  · obtain ⟨htake, hdrop⟩ := span_append_cons hplain (by decide : ('.' != '.') = false) fraction
    rw [htake, hdrop] at hdigits ⊢
    rw [List.drop_succ_cons, List.drop_zero, List.all_append, Bool.and_eq_true] at hdigits
    exact .decimal hne (List.all_eq_true.1 hdigits.1) (List.all_eq_true.1 hdigits.2)

/-- A unit that is named in lower case is spelled in ASCII letters, or with a micro sign. -/
theorem isSpelled_of_unit? (h : unit? unit = some u) : u.IsSpelled unit := by
  have hname : unit.map lowerCase ∈ u.names := of_decide_eq_true
    (List.find?_some (p := fun u : TimeUnit => decide (unit.map lowerCase ∈ u.names)) h)
  -- The letter mu stays one in lower case, so it stands in no name that was found.
  have hmu : ∀ name ∈ u.names, 'μ' ∉ name := by cases u <;> decide
  have hlower : unit.map lowerCase = unit.map Text.lowerAscii := by
    refine List.map_congr_left fun c hc => if_neg ?_
    rintro rfl
    exact hmu _ hname (List.mem_map.2 ⟨_, hc, rfl⟩)
  rwa [hlower] at hname

/-- What is read begins with a part. -/
theorem startsPart_of_readParts (h : readParts text = some parts) : StartsPart text := by
  cases parts with
  | nil =>
    rw [readParts_eq_some_nil_iff.1 h]
    simp [StartsPart]
  | cons part parts =>
    obtain ⟨rest, hpart, -⟩ := readParts_eq_some_cons_iff.1 h
    obtain ⟨written, blanks, rfl, hwritten, -⟩ := exists_of_readPart hpart
    exact hwritten.startsPart _

/-- The parts that are found are those that are read. -/
theorem readParts_of_scan (h : scan text = some parts) :
    readParts (skipBlanks text) = some parts := by
  fun_induction scan text generalizing parts with
  | case1 text hnone hblank =>
    obtain rfl := Option.some.inj h
    exact readParts_eq_some_nil_iff.2 (List.dropWhile_eq_nil_iff.2 (List.all_eq_true.1 hblank))
  | case2 => cases h
  | case3 text gap found hfound hshorter hgap ih =>
    simp only [Option.bind_eq_bind, Option.bind_eq_some_iff, Option.pure_def,
      Option.some.injEq] at h
    obtain ⟨numeral, hnumeral, u, hunit, more, hmore, rfl⟩ := h
    -- What was found and what was skipped make up the text, so the reader stands at this part.
    obtain ⟨begun, rfl, hbegun⟩ := append_of_find hfound
    obtain ⟨blanks, rfl, hblanks, rest, hnumber⟩ := mem_matchesAt (List.mem_of_head? hbegun)
    have hpart : (⟨numeral, u⟩ : Part).IsWritten (found.number ++ (blanks ++ found.unit)) :=
      ⟨_, _, _, rfl, isWritten_of_numeral? hnumber hnumeral, hblanks, isSpelled_of_unit? hunit⟩
    have hread := hpart.read (startsPart_of_readParts (ih hmore))
    have hskip := skipBlanks_append (List.all_eq_true.1 hgap)
      fun c => (hpart.startsPart found.rest).isBlank
    rw [List.append_assoc, List.append_assoc] at hread hskip
    rw [hskip]
    exact readParts_eq_some_cons_iff.2 ⟨_, hread, ih hmore⟩
  | case4 => cases h

/-! ## What is written is found -/

/-- The first way to go on from the first way comes first. -/
theorem head?_flatMap {α β : Type} {ways : List α} (next : α → List β) {a : α} {b : β}
    (ha : ways.head? = some a) (hb : (next a).head? = some b) :
    (ways.flatMap next).head? = some b := by
  obtain ⟨more, rfl⟩ := List.head?_eq_some_iff.1 ha
  rw [List.flatMap_cons, List.head?_append, hb, Option.some_or]

/-- The longest run is tried first. -/
theorem head?_takeSome {taken : List Char} (hne : taken ≠ []) (h : ∀ c ∈ taken, p c = true)
    (hrest : ∀ c, rest.head? = some c → p c = false) :
    (takeSome p (taken ++ rest)).head? = some (taken, rest) := by
  induction taken with
  | nil => exact absurd rfl hne
  | cons c taken ih =>
    obtain ⟨hc, htaken⟩ := List.forall_mem_cons.1 h
    rw [List.cons_append, takeSome, if_pos hc, List.head?_append]
    rcases eq_or_ne taken [] with rfl | hmore
    · have hnone : takeSome p rest = [] := by
        cases rest with
        | nil => rfl
        | cons d rest => simp [takeSome, hrest d rfl]
      simp [hnone]
    · simp [ih hmore htaken]

theorem takeSome_eq_nil (h : ∀ c, text.head? = some c → p c = false) : takeSome p text = [] := by
  cases text with
  | nil => rfl
  | cons c text => simp [takeSome, h c rfl]

theorem takeFraction_eq_nil (h : text.head? ≠ some '.') : takeFraction text = [] := by
  unfold takeFraction
  split
  · exact absurd rfl h
  · rfl

/-- A number that is written is the first that is tried, if neither a point nor a digit of any
script goes on with it. -/
theorem head?_takeNumber (h : numeral.IsWritten number)
    (hrest : ∀ c, rest.head? = some c → Text.isDecimalDigit c = false ∧ c ≠ '.') :
    (takeNumber (number ++ rest)).head? = some (number, rest) := by
  have hscript : ∀ {digits}, AllDigits digits → ∀ c ∈ digits, Text.isDecimalDigit c = true :=
    fun hdigits c hc => isDecimalDigit_of_isDigit (hdigits c hc)
  have hend : ∀ c, rest.head? = some c → Text.isDecimalDigit c = false := fun c hc => (hrest c hc).1
  have hfraction : ∀ {fraction}, fraction ≠ [] → AllDigits fraction →
      (takeFraction ('.' :: (fraction ++ rest))).head? = some ('.' :: fraction, rest) := by
    intro fraction hne hdigits
    simp [takeFraction, head?_takeSome hne (hscript hdigits) hend]
  cases h with
  | whole hne hdigits =>
    have hpoint : takeFraction rest = [] := takeFraction_eq_nil fun hc => (hrest '.' hc).2 rfl
    have hfirst := head?_flatMap (fun whole : Taken =>
      (takeFraction whole.2).map (fun way => (whole.1 ++ way.1, way.2)) ++ [whole])
      (head?_takeSome hne (hscript hdigits) hend) (b := (number, rest)) (by simp [hpoint])
    rw [takeNumber, List.head?_append, hfirst, Option.some_or]
  | @decimal whole fraction hne hwhole hdigits =>
    rw [List.append_assoc, List.cons_append]
    have hpoint : Text.isDecimalDigit '.' = false := by decide
    rcases eq_or_ne whole [] with rfl | hsome
    · simp [takeNumber, takeSome, hpoint, hfraction hne hdigits]
    · have hlongest : (takeSome Text.isDecimalDigit (whole ++ '.' :: (fraction ++ rest))).head? =
          some (whole, '.' :: (fraction ++ rest)) :=
        head?_takeSome hsome (hscript hwhole) (by simp [hpoint])
      have hfirst := head?_flatMap (fun whole : Taken =>
        (takeFraction whole.2).map (fun way => (whole.1 ++ way.1, way.2)) ++ [whole])
        hlongest (b := (whole ++ '.' :: fraction, rest)) (by simp [hfraction hne hdigits])
      rw [takeNumber, List.head?_append, hfirst, Option.some_or]

/-- A letter of a unit is folded to its lower case. -/
theorem foldCase_eq {c : Char} (h : Text.lowerAscii c ∈ unitLetters) :
    foldCase c = Text.lowerAscii c := by
  have hs : c ≠ 'ſ' := by
    rintro rfl
    exact absurd h (by decide)
  have hmu : ¬ (c = 'μ' ∨ c = 'Μ') := by
    rintro (rfl | rfl) <;> exact absurd h (by decide)
  rw [foldCase, if_neg hs, if_neg hmu]

/-- No letter goes on with a unit. -/
theorem takeLetters_eq_none (h : ∀ c, rest.head? = some c → isNoUnit c = true)
    (letters : List Char) : takeLetters ('s' :: letters) rest = none := by
  cases rest with
  | nil => rfl
  | cons c rest =>
    have hc : isNoUnit c = true := h c rfl
    refine if_neg fun hfold => ?_
    simp only [foldCase, lowerAscii_of_isNoUnit hc] at hfold
    split at hfold
    · next hlong =>
      subst hlong
      exact absurd hc (by decide)
    · split at hfold
      · cases hfold
      · subst hfold
        exact absurd hc (by decide)

/-- A unit that is spelled is the first that is tried, if no letter follows. -/
theorem head?_takeLetters (h : u.IsSpelled unit)
    (hrest : ∀ c, rest.head? = some c → isNoUnit c = true) :
    (unitNames.filterMap fun name => takeLetters name (unit ++ rest)).head? =
      some (unit, rest) := by
  have hnone := takeLetters_eq_none hrest []
  have hlower : ∀ c ∈ unit, foldCase c = Text.lowerAscii c := fun c hc => foldCase_eq (h.letters hc)
  simp only [TimeUnit.IsSpelled] at h
  -- Units have one letter or two.
  obtain _ | ⟨a, _ | ⟨b, _ | ⟨c, more⟩⟩⟩ := unit
  · cases u <;> simp [TimeUnit.names] at h
  · have ha := hlower a (by simp)
    cases u <;> simp_all [TimeUnit.names, unitNames, takeLetters]
  · have ha := hlower a (by simp)
    have hb := hlower b (by simp)
    cases u with
    | microsecond =>
      rcases List.mem_pair.1 h with h | h <;> simp_all [unitNames, takeLetters]
    | _ => simp_all [TimeUnit.names, unitNames, takeLetters]
  · cases u <;> simp [TimeUnit.names] at h

/-- No blank is a digit of any script. -/
theorem isDecimalDigit_of_isBlank {c : Char} (h : Text.isBlank c = true) :
    Text.isDecimalDigit c = false := by
  have hall : ∀ first ∈ Text.digitZeros, ∀ i < 10,
      Text.isBlank (Char.ofNat (first + i)) = false := by decide +kernel
  by_contra hdigit
  rw [Bool.not_eq_false] at hdigit
  simp only [Text.isDecimalDigit, List.any_eq_true, Bool.and_eq_true, decide_eq_true_eq] at hdigit
  obtain ⟨first, hfirst, hlow, hhigh⟩ := hdigit
  have hblank := hall first hfirst (c.toNat - first) (by omega)
  rw [Nat.add_sub_cancel' hlow, Char.ofNat_toNat, h] at hblank
  cases hblank

/-- No letter of a unit is a digit of any script. -/
theorem isDecimalDigit_of_unitLetter {c : Char} (h : Text.lowerAscii c ∈ unitLetters) :
    Text.isDecimalDigit c = false := by
  -- Digits of other scripts come after all letters of units.
  have hlow : c.toNat < 0x660 := by
    by_contra hbeyond
    have hself : Text.lowerAscii c = c := by
      refine if_neg fun hcase => ?_
      have hhigh : c.toNat ≤ 90 := hcase.2
      omega
    have hletters : ∀ c ∈ unitLetters, c.toNat < 0x660 := forall_unitLetters (by decide)
    exact hbeyond (hletters c (hself ▸ h))
  rw [← Bool.not_eq_true, isDecimalDigit_iff hlow, Bool.not_eq_true]
  exact (isNoUnit_eq_false_iff.1 (isNoUnit_of_unitLetter h)).2.1

/-- Nothing behind a number goes on with it, not even in other scripts. -/
theorem TimeUnit.IsSpelled.isDecimalDigit (h : u.IsSpelled unit) (hblanks : AllBlank blanks)
    {c : Char} (hc : (blanks ++ (unit ++ rest)).head? = some c) :
    Text.isDecimalDigit c = false ∧ c ≠ '.' := by
  refine ⟨?_, (h.endsNumeral hblanks rest c hc).2⟩
  cases blanks with
  | nil =>
    rw [List.nil_append, List.head?_append_of_ne_nil _ h.ne_nil] at hc
    exact isDecimalDigit_of_unitLetter (h.letters (List.mem_of_head? hc))
  | cons b blanks =>
    obtain rfl := Option.some.inj hc
    exact isDecimalDigit_of_isBlank (hblanks b List.mem_cons_self)

/-- A part that is written is the first that is found where it begins. -/
theorem head?_matchesAt (hnumber : numeral.IsWritten number) (hblanks : AllBlank blanks)
    (hunit : u.IsSpelled unit) (hrest : ∀ c, rest.head? = some c → isNoUnit c = true) :
    (matchesAt (number ++ (blanks ++ (unit ++ rest)))).head? = some ⟨number, unit, rest⟩ := by
  have hspan : (takeSome Text.isBlank (blanks ++ (unit ++ rest)) ++
      [([], blanks ++ (unit ++ rest))]).head? = some (blanks, unit ++ rest) := by
    have hletter : ∀ c, (unit ++ rest).head? = some c → Text.isBlank c = false :=
      fun c hc => (isNoUnit_eq_false_iff.1 (hunit.head hc)).1
    rcases eq_or_ne blanks [] with rfl | hne
    · simp [takeSome_eq_nil hletter]
    · rw [List.head?_append, head?_takeSome hne hblanks hletter, Option.some_or]
  exact head?_flatMap _ (head?_takeNumber hnumber fun c hc => hunit.isDecimalDigit hblanks hc)
    (head?_flatMap _ hspan (by simp [head?_takeLetters hunit hrest]))

/-- Nothing is found at a blank. -/
theorem matchesAt_of_isBlank {c : Char} (h : Text.isBlank c = true) (rest : List Char) :
    matchesAt (c :: rest) = [] := by
  have hpoint : c ≠ '.' := by
    rintro rfl
    exact absurd h (by decide)
  have hnumber : takeNumber (c :: rest) = [] := by
    rw [takeNumber, takeSome, isDecimalDigit_of_isBlank h, takeFraction_eq_nil (by simpa)]
    rfl
  rw [matchesAt, hnumber]
  rfl

/-- Blanks are skipped by the search. -/
theorem find_append (hblanks : AllBlank blanks) (text : List Char) :
    find (blanks ++ text) = (find text).map fun (gap, found) => (blanks ++ gap, found) := by
  induction blanks with
  | nil => simp
  | cons b blanks ih =>
    obtain ⟨hb, hmore⟩ := List.forall_mem_cons.1 hblanks
    rw [List.cons_append, find, matchesAt_of_isBlank hb, ih hmore]
    simp [Function.comp_def]

/-- A number that is written denotes one. -/
theorem numeral?_of_isWritten (h : numeral.IsWritten number) : numeral? number = some numeral := by
  have hpoint : ∀ {digits}, AllDigits digits → ∀ c ∈ digits, (c != '.') = true := by
    intro digits hdigits c hc
    rw [bne_iff_ne]
    rintro rfl
    exact absurd (hdigits _ hc) (by decide)
  have hall : ∀ {digits}, AllDigits digits → digits.all Text.isDigit = true := List.all_eq_true.2
  cases h with
  | whole hne hdigits =>
    have htake := List.takeWhile_eq_self_iff.2 (hpoint hdigits)
    have hdrop := List.dropWhile_eq_nil_iff.2 (hpoint hdigits)
    simp only [numeral?, htake, hdrop]
    simp [hall hdigits]
  | @decimal whole fraction hne hwhole hfraction =>
    obtain ⟨htake, hdrop⟩ :=
      span_append_cons (hpoint hwhole) (by decide : ('.' != '.') = false) fraction
    simp only [numeral?, htake, hdrop]
    simp [hall hwhole, hall hfraction]

/-- A unit that is spelled is named. -/
theorem unit?_of_isSpelled (h : u.IsSpelled unit) : unit? unit = some u := by
  have hlower : unit.map lowerCase = unit.map Text.lowerAscii := by
    refine List.map_congr_left fun c hc => if_neg ?_
    rintro rfl
    exact absurd (h.letters hc) (by decide)
  simp only [TimeUnit.IsSpelled] at h
  rw [unit?, hlower]
  cases u with
  | microsecond => rcases List.mem_pair.1 h with h | h <;> (rw [h]; decide)
  | _ => rw [List.mem_singleton.1 h]; decide

theorem scan_of_blank (hblanks : AllBlank text) (h : find text = none) : scan text = some [] := by
  rw [scan]
  split
  · exact if_pos (List.all_eq_true.2 hblanks)
  · next heq =>
    rw [h] at heq
    cases heq

theorem scan_of_find (hgap : AllBlank gap) (h : find text = some (gap, found)) :
    scan text = (numeral? found.number).bind fun numeral => (unit? found.unit).bind fun unit =>
      (scan found.rest).bind fun parts => some (⟨numeral, unit⟩ :: parts) := by
  rw [scan]
  split
  · next heq =>
    rw [h] at heq
    cases heq
  · next heq =>
    obtain ⟨rfl, rfl⟩ := Prod.mk.inj (Option.some.inj (h.symm.trans heq))
    exact if_pos (List.all_eq_true.2 hgap)

/-- The parts that are read are found. -/
theorem scan_of_readParts (hblanks : AllBlank blanks) (h : readParts text = some parts) :
    scan (blanks ++ text) = some parts := by
  induction parts generalizing blanks text with
  | nil =>
    obtain rfl := readParts_eq_some_nil_iff.1 h
    rw [List.append_nil]
    refine scan_of_blank hblanks ?_
    have hfind := find_append hblanks []
    rwa [List.append_nil] at hfind
  | cons part parts ih =>
    obtain ⟨rest, hpart, hrest⟩ := readParts_eq_some_cons_iff.1 h
    obtain ⟨_, behind, rfl, ⟨number, inner, unit, rfl, hnumber, hinner, hunit⟩, hbehind⟩ :=
      exists_of_readPart hpart
    -- A blank or the next part follows, so the search takes this unit and no longer one.
    have hnext : ∀ c, (behind ++ rest).head? = some c → isNoUnit c = true := by
      intro c hc
      cases behind with
      | nil => rcases startsPart_of_readParts hrest c hc with hdigit | rfl <;> simp_all [isNoUnit]
      | cons b behind =>
        obtain rfl := Option.some.inj hc
        simp [isNoUnit, hbehind b List.mem_cons_self]
    have hfind : find (blanks ++ (number ++ (inner ++ unit) ++ (behind ++ rest))) =
        some (blanks, ⟨number, unit, behind ++ rest⟩) := by
      obtain ⟨c, more, hmore⟩ := List.exists_cons_of_ne_nil hnumber.ne_nil
      have hfirst := head?_matchesAt hnumber hinner hunit hnext
      rw [find_append hblanks, List.append_assoc, List.append_assoc, hmore, List.cons_append] at *
      rw [find, hfirst]
      simp
    rw [scan_of_find hblanks hfind, numeral?_of_isWritten hnumber, unit?_of_isSpelled hunit,
      ih hbehind hrest]
    rfl

/-- The parts that are found are those that are read. -/
theorem scan_eq_readParts (hhead : ∀ c, text.head? = some c → Text.isBlank c = false) :
    scan text = readParts text := by
  have hnone : AllBlank [] := by simp [AllBlank]
  have hskip : skipBlanks ([] ++ text) = text := skipBlanks_append hnone hhead
  rw [List.nil_append] at hskip
  ext parts
  constructor
  · intro h
    rw [← hskip]
    exact readParts_of_scan h
  · exact fun h => scan_of_readParts hnone h

/-- The search finds what the reader reads. -/
theorem search_eq_ofChars (hhead : ∀ c, text.head? = some c → Text.isBlank c = false) :
    search text = ofChars text := by
  rewrite [search, ofChars, scan_eq_readParts hhead]
  rfl

/-! ## Whole texts -/

/-- The character is a blank, an ASCII digit, a point, a plus sign or a letter of a unit in either
case. -/
def MayOccur (c : Char) : Prop := isNoUnit c = true ∨ Text.lowerAscii c ∈ unitLetters

theorem AllDigits.mayOccur {digits : List Char} (h : AllDigits digits) {c : Char}
    (hc : c ∈ digits) : MayOccur c :=
  .inl (by simp [isNoUnit, h c hc])

theorem AllBlank.mayOccur (h : AllBlank blanks) {c : Char} (hc : c ∈ blanks) : MayOccur c :=
  .inl (by simp [isNoUnit, h c hc])

theorem Numeral.IsWritten.mayOccur (h : numeral.IsWritten number) {c : Char} (hc : c ∈ number) :
    MayOccur c := by
  cases h with
  | whole hne hdigits => exact hdigits.mayOccur hc
  | decimal hne hwhole hfraction =>
    rcases List.mem_append.1 hc with hc | hc
    · exact hwhole.mayOccur hc
    · rcases List.mem_cons.1 hc with rfl | hc
      · exact .inl (by decide)
      · exact hfraction.mayOccur hc

theorem Part.IsWritten.mayOccur (h : part.IsWritten text) {c : Char} (hc : c ∈ text) :
    MayOccur c := by
  obtain ⟨number, blanks, unit, rfl, hnumber, hblanks, hunit⟩ := h
  simp only [List.mem_append] at hc
  rcases hc with hc | hc | hc
  · exact hnumber.mayOccur hc
  · exact hblanks.mayOccur hc
  · exact .inr (hunit.letters hc)

theorem Parts.mayOccur (h : Parts parts text) {c : Char} (hc : c ∈ text) : MayOccur c := by
  induction h with
  | last hpart => exact hpart.mayOccur hc
  | cons hpart hblanks hrest ih =>
    simp only [List.mem_append] at hc
    rcases hc with hc | hc | hc
    · exact hpart.mayOccur hc
    · exact hblanks.mayOccur hc
    · exact ih hc

/-- No other characters occur in a text that denotes a duration. -/
theorem Denotes.mayOccur {d : Duration} (h : Denotes text d) {c : Char} (hc : c ∈ text) :
    MayOccur c := by
  cases h with
  | millis hsign hne hdigits hlt =>
    rcases List.mem_append.1 hc with hc | hc
    · rcases hsign with rfl | rfl
      · cases hc
      · obtain rfl := List.mem_singleton.1 hc
        exact .inl (by decide)
    · exact hdigits.mayOccur hc
  | parts hparts => exact hparts.mayOccur hc

/-- Trimmed of blanks, a text is read if and only if it denotes a duration, which is then the
result; any other text is a fault of the setting. A text is parts in one way at most, and holds
nothing but what numbers, units and blanks consist of. Searching for the parts gives the same. -/
theorem parse_iff_denotes (text : String) :
    let trimmed := Text.trimChars text.toList
    (∀ d, parse text = .ok d ↔ Denotes trimmed d) ∧
      (∀ e, parse text = .error e → e = .configuration (.duration text) ∧
        e.context.bind (·.field) = some "timeout") ∧
      (∀ parts others, Parts parts trimmed → Parts others trimmed → parts = others) ∧
      (∀ d, Denotes trimmed d → ∀ c ∈ trimmed, MayOccur c) ∧
      ∀ d, parse text = .ok d ↔ search trimmed = some d := by
  intro trimmed
  obtain ⟨-, hhead, hlast⟩ := isTrimmed_iff.2 (rfl : Text.trimChars text.toList = trimmed)
  refine ⟨fun d => ?_, fun e he => ?_, fun parts others => Parts.unique, fun d h c => h.mayOccur,
    fun d => ?_⟩
  · rw [parse_eq_ok_iff, ofChars_eq_some_iff hlast]
  · rw [parse] at he
    split at he
    · cases he
    · obtain rfl := Except.error.inj he
      exact ⟨rfl, rfl⟩
  · rw [parse_eq_ok_iff, search_eq_ofChars hhead]

end Duration

end DaemonRpc

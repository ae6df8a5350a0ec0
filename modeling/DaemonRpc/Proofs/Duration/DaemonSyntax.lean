import DaemonRpc.Proofs.Duration.Search
import DaemonRpc.Timeout

/-!
# The daemon's syntax

A text in the daemon's syntax is one part or more with nothing between them, each of which is a
number and the name of a unit (`ToldPart.IsWritten`). A number is cut off where a unit begins, and a
unit where the next number does, so `isDaemonSyntax` accepts exactly these texts
(`isDaemonSyntax_iff`).
-/

namespace DaemonRpc

namespace Timeout

/-! ## The grammar -/

/-- A part of a text in the daemon's syntax. -/
structure ToldPart where
  /-- The text of the number. -/
  number : List Char
  /-- The text of the unit. -/
  unit : List Char

/-- All characters are digits, of whatever script. -/
def AllDecimal (text : List Char) : Prop := ∀ c ∈ text, Text.isDecimalDigit c = true

/-- The text is digits, with a point between them, before or behind them, or without one. -/
inductive IsToldNumber : List Char → Prop where
  | whole {digits : List Char} (hne : digits ≠ []) (hdigits : AllDecimal digits) :
    IsToldNumber digits
  | decimal {whole fraction : List Char} (hne : whole ++ fraction ≠ []) (hwhole : AllDecimal whole)
    (hfraction : AllDecimal fraction) : IsToldNumber (whole ++ '.' :: fraction)

/-- The names of units in the daemon's syntax. In that of the microsecond a micro sign or the letter
mu may stand. -/
def toldUnits : List (List Char) :=
  [['n', 's'], ['u', 's'], ['µ', 's'], ['μ', 's'], ['m', 's'], ['s'], ['m'], ['h']]

namespace ToldPart

/-- The text of a part. -/
def chars (p : ToldPart) : List Char := p.number ++ p.unit

/-- The part is a number and a unit of the daemon's syntax. -/
structure IsWritten (p : ToldPart) : Prop where
  number : IsToldNumber p.number
  unit : p.unit ∈ toldUnits

end ToldPart

variable {number unit rest : List Char} {parts : List ToldPart}

/-! ## Characters -/

/-- The character belongs to a number: a digit of any script or a point. -/
def inNumber (c : Char) : Bool := Text.isDecimalDigit c || c == '.'

/-- The character ends a unit: a digit of any script, or what no unit holds. -/
def endsUnit (c : Char) : Bool := Text.isDecimalDigit c || Duration.isNoUnit c

theorem inNumber_iff {c : Char} :
    inNumber c = true ↔ Text.isDecimalDigit c = true ∨ c = '.' := by
  rw [inNumber, Bool.or_eq_true, beq_iff_eq]

theorem endsUnit_of_inNumber {c : Char} (h : inNumber c = true) : endsUnit c = true := by
  rcases inNumber_iff.1 h with hdigit | rfl
  · rw [endsUnit, hdigit, Bool.true_or]
  · decide

theorem isBlank_of_inNumber {c : Char} (h : inNumber c = true) : Text.isBlank c = false := by
  rw [← Bool.not_eq_true]
  intro hblank
  rcases inNumber_iff.1 h with hdigit | rfl
  · rw [Duration.isDecimalDigit_of_isBlank hblank] at hdigit
    cases hdigit
  · exact absurd hblank (by decide)

theorem IsToldNumber.ne_nil (h : IsToldNumber number) : number ≠ [] := by
  cases h with
  | whole hne => exact hne
  | decimal => simp

theorem IsToldNumber.inNumber (h : IsToldNumber number) {c : Char} (hc : c ∈ number) :
    Timeout.inNumber c = true := by
  cases h with
  | whole hne hdigits => exact inNumber_iff.2 (.inl (hdigits c hc))
  | decimal hne hwhole hfraction =>
    rcases List.mem_append.1 hc with hc | hc
    · exact inNumber_iff.2 (.inl (hwhole c hc))
    · rcases List.mem_cons.1 hc with rfl | hc
      · exact inNumber_iff.2 (.inr rfl)
      · exact inNumber_iff.2 (.inl (hfraction c hc))

theorem ne_nil_of_mem_toldUnits (h : unit ∈ toldUnits) : unit ≠ [] := by
  rintro rfl
  exact absurd h (by decide)

theorem endsUnit_of_mem_toldUnits (h : unit ∈ toldUnits) {c : Char} (hc : c ∈ unit) :
    endsUnit c = false := by
  have hall : (toldUnits.all fun unit => unit.all fun c => !endsUnit c) = true := by decide
  have hletters := List.all_eq_true.1 (List.all_eq_true.1 hall unit h) c hc
  rwa [Bool.not_eq_true'] at hletters

theorem endsUnit_eq_false {c : Char} (h : endsUnit c = false) :
    inNumber c = false ∧ Text.isBlank c = false := by
  obtain ⟨hdigit, hno⟩ := Bool.or_eq_false_iff.1 h
  obtain ⟨hblank, -, hpoint, -⟩ := Duration.isNoUnit_eq_false_iff.1 hno
  exact ⟨by simp [inNumber, hdigit, hpoint], hblank⟩

/-! ## Texts in the daemon's syntax -/

/-- A text is cut in one way only where a run of characters of a class ends. -/
theorem span_inj {p : Char → Bool} {run run' behind behind' : List Char}
    (hrun : ∀ c ∈ run, p c = true) (hbehind : ∀ c, behind.head? = some c → p c = false)
    (hrun' : ∀ c ∈ run', p c = true) (hbehind' : ∀ c, behind'.head? = some c → p c = false)
    (h : run ++ behind = run' ++ behind') : run = run' ∧ behind = behind' := by
  obtain ⟨htake, hdrop⟩ := Duration.span_append hrun hbehind
  obtain ⟨htake', hdrop'⟩ := Duration.span_append hrun' hbehind'
  rw [h] at htake hdrop
  exact ⟨htake.symm.trans htake', hdrop.symm.trans hdrop'⟩

/-- Behind a number a unit begins. -/
theorem endsUnit_of_head? (hunit : unit ≠ []) (hends : ∀ c ∈ unit, endsUnit c = false) {c : Char}
    (hc : (unit ++ rest).head? = some c) : endsUnit c = false := by
  rw [List.head?_append_of_ne_nil _ hunit] at hc
  exact hends c (List.mem_of_head? hc)

/-- Parts begin with a number. -/
theorem inNumber_of_head? (hparts : ∀ p ∈ parts, p.IsWritten) {c : Char}
    (hc : (parts.flatMap ToldPart.chars).head? = some c) : inNumber c = true := by
  cases parts with
  | nil => cases hc
  | cons p parts =>
    obtain ⟨hp, -⟩ := List.forall_mem_cons.1 hparts
    rw [List.flatMap_cons, ToldPart.chars, List.append_assoc,
      List.head?_append_of_ne_nil _ hp.number.ne_nil] at hc
    exact hp.number.inNumber (List.mem_of_head? hc)

theorem IsToldNumber.drop (h : IsToldNumber number)
    (hrest : ∀ c, rest.head? = some c → Timeout.inNumber c = false) :
    dropDaemonNumber (number ++ rest) = some rest := by
  have hdigit : ∀ c, rest.head? = some c → Text.isDecimalDigit c = false :=
    fun c hc => (Bool.or_eq_false_iff.1 (hrest c hc)).1
  cases h with
  | whole hne hdigits =>
    obtain ⟨htake, hdrop⟩ := Duration.span_append hdigits hdigit
    have hsome : number.isEmpty = false := by simpa using hne
    simp only [dropDaemonNumber, htake, hdrop, hsome, Bool.false_eq_true, if_false]
    split
    · exact absurd (hrest '.' rfl) (by decide)
    · rfl
  | @decimal whole fraction hne hwhole hfraction =>
    obtain ⟨htake, hdrop⟩ := Duration.span_append_cons hwhole
      (by decide : Text.isDecimalDigit '.' = false) (fraction ++ rest)
    obtain ⟨htake', hdrop'⟩ := Duration.span_append hfraction hdigit
    rw [List.append_assoc, List.cons_append]
    by_cases hnone : whole = []
    · subst hnone
      have hsome : fraction.isEmpty = false := by simpa using hne
      simp only [List.nil_append] at htake
      simp only [List.nil_append, dropDaemonNumber, htake, htake', hdrop', hsome,
        List.isEmpty_nil, if_true, Bool.false_eq_true, if_false]
    · have hsome : whole.isEmpty = false := by simpa using hnone
      simp only [dropDaemonNumber, htake, hdrop, hdrop', hsome, Bool.false_eq_true, if_false]

theorem exists_of_dropDaemonNumber {text : List Char} (h : dropDaemonNumber text = some rest) :
    ∃ number, text = number ++ rest ∧ IsToldNumber number := by
  have hsplit := fun text : List Char =>
    (List.takeWhile_append_dropWhile (p := Text.isDecimalDigit) (l := text)).symm
  have hdigits : ∀ text : List Char, AllDecimal (text.takeWhile Text.isDecimalDigit) :=
    fun _ _ => List.mem_takeWhile_imp
  simp only [dropDaemonNumber] at h
  split at h
  · next hnone =>
    split at h
    · next more =>
      obtain ⟨hsome, h⟩ := Option.ite_none_left_eq_some.1 h
      obtain rfl := Option.some.inj h
      refine ⟨[] ++ '.' :: more.takeWhile Text.isDecimalDigit, ?_, .decimal ?_ ?_ (hdigits more)⟩
      · rw [List.nil_append, List.cons_append, ← hsplit more]
      · simpa using hsome
      · simp [AllDecimal]
    · cases h
  · next hsome =>
    have hne : text.takeWhile Text.isDecimalDigit ≠ [] := by simpa using hsome
    split at h
    · next more hmore =>
      -- The point belongs to the number, whether digits follow or not.
      obtain rfl := Option.some.inj h
      refine ⟨text.takeWhile Text.isDecimalDigit ++ '.' :: more.takeWhile Text.isDecimalDigit, ?_,
        .decimal (by simp [hne]) (hdigits text) (hdigits more)⟩
      rw [List.append_assoc, List.cons_append, ← hsplit more, ← hmore, ← hsplit text]
    · obtain rfl := Option.some.inj h
      exact ⟨_, hsplit text, .whole hne (hdigits text)⟩

theorem dropDaemonUnit_of_mem (h : unit ∈ toldUnits) (hrest : rest.head? ≠ some 's') :
    dropDaemonUnit (unit ++ rest) = some rest := by
  have hm : dropDaemonUnit ('m' :: rest) = some rest := by
    rw [dropDaemonUnit]
    · intro more heq
      exact hrest (by rw [heq]; rfl)
  simp only [toldUnits, List.mem_cons, List.not_mem_nil, or_false] at h
  rcases h with rfl | rfl | rfl | rfl | rfl | rfl | rfl | rfl
  case inr.inr.inr.inr.inr.inr.inl => exact hm
  all_goals rfl

theorem exists_of_dropDaemonUnit {text : List Char} (h : dropDaemonUnit text = some rest) :
    ∃ unit, text = unit ++ rest ∧ unit ∈ toldUnits := by
  unfold dropDaemonUnit at h
  -- One case for each name, the longer ones first.
  split at h
  case h_6 | h_7 | h_8 =>
    obtain rfl := Option.some.inj h
    refine ⟨[_], rfl, ?_⟩
    decide
  case h_9 => cases h
  all_goals
    obtain rfl := Option.some.inj h
    refine ⟨[_, _], rfl, ?_⟩
    decide

/-- Written parts are accepted. -/
theorem isDaemonParts_flatMap (hparts : ∀ p ∈ parts, p.IsWritten) :
    isDaemonParts (parts.flatMap ToldPart.chars) = true := by
  induction parts with
  | nil =>
    rw [isDaemonParts]
    rfl
  | cons p parts ih =>
    obtain ⟨hp, hrest⟩ := List.forall_mem_cons.1 hparts
    have hnumber : dropDaemonNumber (p.number ++ (p.unit ++ parts.flatMap ToldPart.chars)) =
        some (p.unit ++ parts.flatMap ToldPart.chars) :=
      hp.number.drop fun c hc => (endsUnit_eq_false (endsUnit_of_head?
        (ne_nil_of_mem_toldUnits hp.unit) (fun _ => endsUnit_of_mem_toldUnits hp.unit) hc)).1
    have hunit : dropDaemonUnit (p.unit ++ parts.flatMap ToldPart.chars) =
        some (parts.flatMap ToldPart.chars) :=
      dropDaemonUnit_of_mem hp.unit fun hs => absurd (inNumber_of_head? hrest hs) (by decide)
    rw [List.flatMap_cons, ToldPart.chars, List.append_assoc, isDaemonParts]
    split
    · rfl
    · split
      · next hnone =>
        rw [hnumber] at hnone
        cases hnone
      · next hsome =>
        obtain rfl := Option.some.inj (hnumber.symm.trans hsome)
        split
        · next hnone =>
          rw [hunit] at hnone
          cases hnone
        · next hsome =>
          obtain rfl := Option.some.inj (hunit.symm.trans hsome)
          exact ih hrest

theorem exists_of_isDaemonParts {text : List Char} (h : isDaemonParts text = true) :
    ∃ parts : List ToldPart, (∀ p ∈ parts, p.IsWritten) ∧ text = parts.flatMap ToldPart.chars := by
  fun_induction isDaemonParts text with
  | case1 text hempty => exact ⟨[], by simp, by simpa using hempty⟩
  | case2 => cases h
  | case3 => cases h
  | case4 text hsome afterNumber hnumber rest hunit _ _ ih =>
    obtain ⟨number, rfl, hwritten⟩ := exists_of_dropDaemonNumber hnumber
    obtain ⟨unit, rfl, hnamed⟩ := exists_of_dropDaemonUnit hunit
    obtain ⟨parts, hparts, rfl⟩ := ih h
    refine ⟨⟨number, unit⟩ :: parts, List.forall_mem_cons.2 ⟨⟨hwritten, hnamed⟩, hparts⟩, ?_⟩
    rw [List.flatMap_cons, ToldPart.chars, List.append_assoc]

/-- The texts in the daemon's syntax are those of one part or more. -/
theorem isDaemonSyntax_iff {text : List Char} :
    isDaemonSyntax text = true ↔ ∃ parts, parts ≠ [] ∧ (∀ p ∈ parts, p.IsWritten) ∧
      text = parts.flatMap ToldPart.chars := by
  rw [isDaemonSyntax, Bool.and_eq_true, Bool.not_eq_true', List.isEmpty_eq_false_iff]
  constructor
  · rintro ⟨hne, h⟩
    obtain ⟨parts, hparts, rfl⟩ := exists_of_isDaemonParts h
    refine ⟨parts, ?_, hparts, rfl⟩
    rintro rfl
    exact hne rfl
  · rintro ⟨parts, hne, hparts, rfl⟩
    refine ⟨fun hnil => ?_, isDaemonParts_flatMap hparts⟩
    obtain ⟨p, more, rfl⟩ := List.exists_cons_of_ne_nil hne
    have hp := (hparts p List.mem_cons_self).number.ne_nil
    simp [ToldPart.chars, hp] at hnil

end Timeout

end DaemonRpc

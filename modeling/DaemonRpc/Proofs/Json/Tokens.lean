import DaemonRpc.Json.Printer
import DaemonRpc.Proofs.Json.Items
import DaemonRpc.Proofs.Utf8.Lossy
import Mathlib.Data.List.Basic

/-!
# Strings and whole numbers, written and read back

Inside a string each written character stands for its own octets (`StandsFor`), escaped or not, so a
string is read back whatever it holds. A whole number of 64 bits is read back where nothing stands
behind it with which a number goes on (`EndsNumber`).

* `takes_readString`: strings.
* `takes_readNumber`, `takes_readNumber_neg`: whole numbers after their sign.
-/

namespace DaemonRpc.Json

open Cursor Utf8

variable {rest : List UInt8} {c : Cursor}

/-! ## Octets -/

/-- An ASCII character is written as its code. -/
theorem encodeChar_of_ascii {ch : Char} (h : ch.toNat < 0x80) :
    String.utf8EncodeChar ch = [octet ch] := by
  have hone : ch.val.toNat ≤ 0x7F := Nat.le_of_lt_succ h
  unfold String.utf8EncodeChar
  rw [if_pos hone]
  rfl

theorem encode_of_ascii {text : List Char} (h : ∀ ch ∈ text, ch.toNat < 0x80) :
    encode text = text.map octet := by
  induction text with
  | nil => rfl
  | cons ch text ih =>
    rw [List.forall_mem_cons] at h
    rw [encode_cons, encodeChar_of_ascii h.1, ih h.2]
    rfl

/-- An octet of a string that stands for itself. -/
def IsLiteral (b : UInt8) : Prop := b ≠ octet '"' ∧ b ≠ octet '\\' ∧ ¬ b < 0x20

/-- The octets of a character without an escape stand for themselves, beyond ASCII too. -/
theorem isLiteral_of_mem {ch : Char} (hquote : ch ≠ '"') (hslash : ch ≠ '\\')
    (hcontrol : ¬ ch.toNat < 0x20) {b : UInt8} (hb : b ∈ String.utf8EncodeChar ch) :
    IsLiteral b := by
  have hquote' : ch.val.toNat ≠ 0x22 := fun h => hquote (Char.toNat_inj.1 h)
  have hslash' : ch.val.toNat ≠ 0x5C := fun h => hslash (Char.toNat_inj.1 h)
  have hcontrol' : 0x20 ≤ ch.val.toNat := Nat.le_of_not_lt hcontrol
  have hvalid : ch.val.toNat.isValidChar := ch.valid
  have hquoteOctet : (octet '"').toNat = 0x22 := by decide
  have hslashOctet : (octet '\\').toNat = 0x5C := by decide
  have htwenty : (0x20 : UInt8).toNat = 0x20 := by decide
  simp only [IsLiteral, ne_eq, ← UInt8.toNat_inj, UInt8.lt_iff_toNat_lt, hquoteOctet, hslashOctet,
    htwenty]
  simp only [Nat.isValidChar] at hvalid
  -- Beyond ASCII every octet of a character is at least 0x80.
  revert hb
  fun_cases String.utf8EncodeChar ch <;>
    simp only [List.mem_cons, List.not_mem_nil, or_false, ← UInt8.toNat_inj,
      UInt8.toNat_ofNat'] <;>
    omega

/-! ## Strings -/

/-- Inside a string the octets `written` are read as the octets `meant`. -/
def StandsFor (written meant : List UInt8) : Prop :=
  ∀ (c : Cursor) (rest taken : List UInt8) (fuel : Nat), c.rest = written ++ rest →
    c.rest.length < fuel →
      ∃ (d : Cursor) (left : Nat), readStringOctets fuel taken c =
        readStringOctets left (meant.reverse ++ taken) d ∧ d.rest = rest ∧ rest.length < left

section Strings

variable {written written' meant meant' : List UInt8}

theorem standsFor_nil : StandsFor [] [] := by
  intro c rest taken fuel hc hfuel
  refine ⟨c, fuel, rfl, hc, ?_⟩
  rwa [hc] at hfuel

theorem StandsFor.append (h : StandsFor written meant) (h' : StandsFor written' meant') :
    StandsFor (written ++ written') (meant ++ meant') := by
  intro c rest taken fuel hc hfuel
  rw [List.append_assoc] at hc
  obtain ⟨c₁, left₁, hread₁, hc₁, hleft₁⟩ := h c _ taken fuel hc hfuel
  obtain ⟨c₂, left₂, hread₂, hc₂, hleft₂⟩ := h' c₁ rest (meant.reverse ++ taken) left₁ hc₁
    (by rwa [hc₁])
  refine ⟨c₂, left₂, ?_, hc₂, hleft₂⟩
  rw [hread₁, hread₂, List.reverse_append, List.append_assoc]

theorem standsFor_literal {b : UInt8} (h : IsLiteral b) : StandsFor [b] [b] := by
  intro c rest taken fuel hc hfuel
  obtain ⟨fuel, rfl⟩ := Nat.exists_eq_add_one_of_ne_zero (Nat.ne_zero_of_lt hfuel)
  obtain ⟨hquote, hslash, hcontrol⟩ := h
  have hpeek : c.peek? = some b := by rw [peek?, hc, List.cons_append, List.head?_cons]
  refine ⟨c.advance, fuel, ?_, ?_, ?_⟩
  · simp only [readStringOctets, hpeek, hquote, hslash, hcontrol, if_false]
    rfl
  · rw [rest_advance, hc]
    rfl
  · rw [hc] at hfuel
    simpa using hfuel

/-- Octets that stand for themselves, one after the other. -/
theorem standsFor_self (h : ∀ b ∈ meant, IsLiteral b) : StandsFor meant meant := by
  induction meant with
  | nil => exact standsFor_nil
  | cons b meant ih =>
    rw [List.forall_mem_cons] at h
    exact (standsFor_literal h.1).append (ih h.2)

/-- An escape stands for what is read after its backslash. -/
theorem standsFor_escape (h : ∀ rest, Takes readEscape (written ++ rest) meant rest) :
    StandsFor (octet '\\' :: written) meant := by
  intro c rest taken fuel hc hfuel
  obtain ⟨fuel, rfl⟩ := Nat.exists_eq_add_one_of_ne_zero (Nat.ne_zero_of_lt hfuel)
  have hpeek : c.peek? = some (octet '\\') := by rw [peek?, hc, List.cons_append, List.head?_cons]
  have hquote : octet '\\' ≠ octet '"' := by decide
  obtain ⟨d, hread, hd⟩ := h rest c.advance (by rw [rest_advance, hc]; rfl)
  refine ⟨d, fuel, ?_, hd, ?_⟩
  · simp only [readStringOctets, hpeek, hquote, hread, if_false, if_true]
  · rw [hc, List.cons_append, List.length_cons, List.length_append] at hfuel
    omega

/-- An escape of one letter. -/
theorem takes_readEscape {b plain : UInt8} (hb : b ≠ octet 'u') (h : simpleEscape? b = some plain) :
    Takes readEscape ([b] ++ rest) [plain] rest := by
  intro c hc
  have hpeek : c.peek? = some b := by rw [peek?, hc, List.cons_append, List.head?_cons]
  refine ⟨c.advance, ?_, by rw [rest_advance, hc]; rfl⟩
  simp only [readEscape, hpeek, hb, h, if_false]

/-- An escape by number, of a control character. -/
theorem takes_readEscape_number {n : Nat} (h : n < 0x20) :
    Takes readEscape
      (['u', '0', '0', hexDigit (n / 16), hexDigit (n % 16)].map octet ++ rest) [UInt8.ofNat n]
      rest := by
  have hhex : ∀ k < 16, hexValue? (octet (hexDigit k)) = some k := by decide
  have hzero : hexValue? (octet '0') = some 0 := by decide
  have hchar : ∀ n < 0x20, String.utf8EncodeChar (Char.ofNat n) = [UInt8.ofNat n] := by decide
  intro c hc
  have hpeek : c.peek? = some (octet 'u') := by
    rw [peek?, hc]
    rfl
  have hdigits : c.advance.rest =
      ['0', '0', hexDigit (n / 16), hexDigit (n % 16)].map octet ++ rest := by
    rw [rest_advance, hc]
    rfl
  have hvalue : ((0 * 16 + 0) * 16 + n / 16) * 16 + n % 16 = n := by omega
  refine ⟨c.advance.advance.advance.advance.advance, ?_, ?_⟩
  · simp only [readEscape, hpeek, if_true, readUnicodeEscape, readHex, hdigits, List.map_cons,
      List.cons_append, hzero, hhex (n / 16) (by omega), hhex (n % 16) (by omega), hvalue]
    dsimp only [bind, Except.bind]
    rw [if_neg (by omega)]
    dsimp only [pure, Except.pure]
    rw [if_pos (by omega), hchar n h]
  · simp only [rest_advance, hc]
    rfl

/-- The characters with an escape of one letter. -/
def lettered : List Char := ['"', '\\', '\x08', '\x0c', '\n', '\r', '\t']

/-- The letter of such an escape is read as the character. -/
theorem exists_letter : ∀ ch ∈ lettered, ∃ letter : UInt8,
    encode (escapeChar ch) = [octet '\\', letter] ∧ String.utf8EncodeChar ch = [octet ch] ∧
      letter ≠ octet 'u' ∧ simpleEscape? letter = some (octet ch) := by
  simp only [lettered, List.forall_mem_cons]
  exact ⟨⟨octet '"', by decide⟩, ⟨octet '\\', by decide⟩, ⟨octet 'b', by decide⟩,
    ⟨octet 'f', by decide⟩, ⟨octet 'n', by decide⟩, ⟨octet 'r', by decide⟩, ⟨octet 't', by decide⟩,
    nofun⟩

theorem escapeChar_of_not_mem {ch : Char} (h : ch ∉ lettered) :
    escapeChar ch =
      if ch.toNat < 0x20 then
        ['\\', 'u', '0', '0', hexDigit (ch.toNat / 16), hexDigit (ch.toNat % 16)]
      else [ch] := by
  simp only [lettered, List.mem_cons, List.not_mem_nil, or_false, not_or] at h
  obtain ⟨hquote, hslash, hback, hfeed, hline, hreturn, htab⟩ := h
  simp only [escapeChar, hquote, hslash, hback, hfeed, hline, hreturn, htab, if_false]

/-- A written character stands for its octets. -/
theorem standsFor_escapeChar (ch : Char) :
    StandsFor (encode (escapeChar ch)) (String.utf8EncodeChar ch) := by
  by_cases hlettered : ch ∈ lettered
  · obtain ⟨letter, hwritten, hmeant, hletter, hvalue⟩ := exists_letter ch hlettered
    rw [hwritten, hmeant]
    exact standsFor_escape fun rest => takes_readEscape hletter hvalue
  rw [escapeChar_of_not_mem hlettered]
  by_cases hcontrol : ch.toNat < 0x20
  · -- A control character is written by its number, in ASCII.
    have hdigit : ∀ n < 16, (hexDigit n).toNat < 0x80 := by decide
    have hhigh := hdigit (ch.toNat / 16) (by omega)
    have hlow := hdigit (ch.toNat % 16) (by omega)
    have hascii : ∀ c ∈ ['\\', 'u', '0', '0', hexDigit (ch.toNat / 16), hexDigit (ch.toNat % 16)],
        c.toNat < 0x80 := by
      simp [hhigh, hlow]
    rw [if_pos hcontrol, encode_of_ascii hascii, encodeChar_of_ascii (by omega)]
    exact standsFor_escape fun rest => takes_readEscape_number hcontrol
  · -- Any other character is written as it is.
    have hquote : ch ≠ '"' := by
      rintro rfl
      exact hlettered (by decide)
    have hslash : ch ≠ '\\' := by
      rintro rfl
      exact hlettered (by decide)
    rw [if_neg hcontrol, encode_cons, encode, List.flatMap_nil, List.append_nil]
    exact standsFor_self fun b hb => isLiteral_of_mem hquote hslash hcontrol hb

theorem standsFor_text (text : List Char) :
    StandsFor (encode (text.flatMap escapeChar)) (encode text) := by
  induction text with
  | nil => exact standsFor_nil
  | cons ch text ih =>
    rw [List.flatMap_cons, encode_append, encode_cons]
    exact (standsFor_escapeChar ch).append ih

/-- A written string is read back up to its closing quotation mark. -/
theorem takes_readString (s : String) :
    Takes readString (encode (s.toList.flatMap escapeChar) ++ octet '"' :: rest) s rest := by
  intro c hc
  obtain ⟨d, left, hread, hd, hleft⟩ :=
    standsFor_text s.toList c _ [] (c.rest.length + 1) hc (Nat.lt_succ_self _)
  obtain ⟨left, rfl⟩ := Nat.exists_eq_add_one_of_ne_zero (Nat.ne_zero_of_lt hleft)
  have hpeek : d.peek? = some (octet '"') := by rw [peek?, hd, List.head?_cons]
  have hdecode : decode? (encode s.toList) = some s.toList := by
    rw [decode?, lossy_encode, if_pos rfl]
  refine ⟨d.advance, ?_, by rw [rest_advance, hd, List.tail_cons]⟩
  rw [readString, hread, readStringOctets, hpeek]
  simp only [if_true, List.append_nil, List.reverse_reverse]
  dsimp only [bind, Except.bind]
  rw [hdecode]
  dsimp only
  rw [String.ofList_toList]
  rfl

end Strings

/-! ## Numbers -/

theorem atDigit_of_peek? {b : UInt8} (h : c.peek? = some b) : c.atDigit = (digit? b).isSome := by
  rw [atDigit, h, Option.bind_some]

/-- A number that stands in front of the octet goes on with it. -/
def goesOn (b : UInt8) : Bool :=
  (digit? b).isSome || b == octet '.' || b == octet 'e' || b == octet 'E'

/-- A number in front of the octets does not go on with them. -/
def EndsNumber (rest : List UInt8) : Prop := ∀ b, rest.head? = some b → goesOn b = false

theorem EndsNumber.ahead (h : EndsNumber c.rest) :
    c.atDigit = false ∧ c.at? '.' = false ∧ c.atExponent = false := by
  unfold atDigit atExponent at?
  cases hpeek : c.peek? with
  | none => decide
  | some b =>
    have hstops := h b hpeek
    simp only [goesOn, Bool.or_eq_false_iff] at hstops
    obtain ⟨⟨⟨hdigit, hpoint⟩, hsmall⟩, hcapital⟩ := hstops
    exact ⟨hdigit, hpoint, Bool.or_eq_false_iff.2 ⟨hsmall, hcapital⟩⟩

theorem endsNumber_nil : EndsNumber [] := nofun

theorem endsNumber_cons {b : UInt8} (h : goesOn b = false) (rest : List UInt8) :
    EndsNumber (b :: rest) := by
  intro b' hb'
  rwa [← Option.some.inj hb']

/-- The value of a digit. -/
def digitOf (ch : Char) : Nat := ch.toNat - '0'.toNat

theorem digit?_octet {ch : Char} (h : ch.isDigit = true) :
    digit? (octet ch) = some (digitOf ch) := by
  have hall : ∀ n < 58, 48 ≤ n →
      digit? (octet (Char.ofNat n)) = some (digitOf (Char.ofNat n)) := by decide
  rw [Char.isDigit, Bool.and_eq_true, decide_eq_true_iff, decide_eq_true_iff] at h
  have hdigit := hall ch.toNat (Nat.lt_succ_of_le h.2) h.1
  rwa [Char.ofNat_toNat] at hdigit

theorem eq_zero_of_octet {ch : Char} (h : ch.isDigit = true) (hzero : octet ch = octet '0') :
    ch = '0' := by
  have hvalue := digit?_octet h
  rw [hzero, digit?_octet (by decide), Option.some_inj] at hvalue
  rw [Char.isDigit, Bool.and_eq_true, decide_eq_true_iff, decide_eq_true_iff] at h
  have hlow : '0'.toNat ≤ ch.toNat := h.1
  have hsub : '0'.toNat - '0'.toNat = ch.toNat - '0'.toNat := hvalue
  exact Char.toNat_inj.1 (by omega)

/-- Digits are taken up to what goes on with no digit. -/
theorem takeDigits_of_rest {digits : List Char} (h : ∀ ch ∈ digits, ch.isDigit = true)
    (hc : c.rest = digits.map octet ++ rest) (hrest : EndsNumber rest) :
    c.takeDigits.1 = digits.map digitOf ∧ c.takeDigits.2.rest = rest := by
  have hpass : ∀ b ∈ digits.map octet, (digit? b).isSome = true := by
    intro b hb
    obtain ⟨ch, hch, rfl⟩ := List.mem_map.1 hb
    rw [digit?_octet (h ch hch), Option.isSome_some]
  -- The rest begins with no digit, so that the digits are exactly those in front of it.
  have hstop : rest.takeWhile (fun b => (digit? b).isSome) = [] ∧
      rest.dropWhile (fun b => (digit? b).isSome) = rest := by
    cases rest with
    | nil => exact ⟨rfl, rfl⟩
    | cons b more =>
      obtain ⟨hdigit, -⟩ := EndsNumber.ahead (c := ⟨b :: more, ⟨1, 0⟩⟩) hrest
      have hother : (digit? b).isSome = false := hdigit
      simp [hother]
  constructor
  · rw [takeDigits, hc, List.takeWhile_append_of_pos hpass, hstop.1, List.append_nil,
      List.filterMap_map]
    exact List.filterMap_eq_map_iff_forall_eq_some.2 fun ch hch => digit?_octet (h ch hch)
  · rw [takeDigits, skipWhile, hc]
    dsimp only
    rw [List.dropWhile_append_of_pos hpass, hstop.2]

/-- Digits only add to a number. -/
theorem le_ofDigitChars (digits : List Char) (value : Nat) :
    value ≤ Nat.ofDigitChars 10 digits value := by
  induction digits generalizing value with
  | nil => exact Nat.le_refl _
  | cons ch digits ih =>
    rw [Nat.ofDigitChars_cons]
    refine Nat.le_trans ?_ (ih _)
    omega

/-- All digits of a number of 64 bits fit. -/
theorem addWhole_digits {digits : List Char} {value : Nat}
    (h : Nat.ofDigitChars 10 digits value < UInt64.size) :
    Scaled.addWhole ⟨value, 0⟩ (digits.map digitOf) =
      (⟨Nat.ofDigitChars 10 digits value, 0⟩, true) := by
  induction digits generalizing value with
  | nil => rfl
  | cons ch digits ih =>
    rw [Nat.ofDigitChars_cons, Nat.mul_comm 10] at h
    -- The number with this digit is no greater than the whole number.
    have hfits : (⟨value, 0⟩ : Scaled).fits (digitOf ch) = true :=
      decide_eq_true (Nat.lt_of_le_of_lt (le_ofDigitChars digits _) h)
    rw [List.map_cons, Scaled.addWhole, if_pos hfits, Nat.ofDigitChars_cons, Nat.mul_comm 10]
    exact ih h

/-- Only zero is written with a zero in front. -/
theorem eq_zero_of_head?_toDigits {n : Nat} (h : (Nat.toDigits 10 n).head? = some '0') : n = 0 := by
  induction n using Nat.strongRecOn with
  | ind n ih =>
    by_cases hn : n < 10
    · rw [Nat.toDigits_of_lt_base hn, List.head?_cons, Option.some_inj] at h
      exact Nat.digitChar_eq_zero.1 h
    · rw [Nat.toDigits_of_base_le (by decide) (by omega),
        List.head?_append_of_ne_nil _ Nat.toDigits_ne_nil] at h
      have := ih (n / 10) (by omega) h
      omega

/-- The digits of a number are taken, and the number is finished as a whole one. -/
theorem readNumber_toDigits (negative : Bool) {n : Nat} (h : n < UInt64.size)
    (hc : c.rest = (Nat.toDigits 10 n).map octet ++ rest) (hrest : EndsNumber rest) :
    ∃ d : Cursor, readNumber negative c = finishWhole negative n d ∧ d.rest = rest := by
  have hdigits : ∀ ch ∈ Nat.toDigits 10 n, ch.isDigit = true :=
    fun ch hch => Nat.isDigit_of_mem_toDigits (by decide) (by decide) hch
  have htaken := takeDigits_of_rest hdigits hc hrest
  have hvalue := Nat.ofDigitChars_ten_toDigits (n := n)
  have hwhole : Scaled.addWhole ⟨0, 0⟩ ((Nat.toDigits 10 n).map digitOf) = (⟨n, 0⟩, true) := by
    rw [addWhole_digits (by rwa [hvalue]), hvalue]
  match hfirst : Nat.toDigits 10 n with
  | [] => exact absurd hfirst Nat.toDigits_ne_nil
  | ch :: more =>
    have hch : ch.isDigit = true := hdigits ch (by rw [hfirst]; exact List.mem_cons_self)
    have hpeek : c.peek? = some (octet ch) := by
      rw [peek?, hc, hfirst]
      rfl
    have hat : c.atDigit = true := by
      rw [atDigit_of_peek? hpeek, digit?_octet hch, Option.isSome_some]
    -- A zero in front stands alone, so that no digit follows it.
    have hzero : ¬ (octet ch = octet '0' ∧ c.advance.atDigit = true) := by
      rintro ⟨hfront, hmore⟩
      obtain rfl : ch = '0' := eq_zero_of_octet hch hfront
      obtain rfl : n = 0 := eq_zero_of_head?_toDigits (by rw [hfirst]; rfl)
      have hbehind : c.advance.rest = rest := by
        rw [rest_advance, hc]
        rfl
      rw [(EndsNumber.ahead (c := c.advance) (by rwa [hbehind])).1] at hmore
      cases hmore
    obtain ⟨-, hpoint, hexponent⟩ := EndsNumber.ahead (c := c.takeDigits.2) (by rwa [htaken.2])
    refine ⟨c.takeDigits.2, ?_, htaken.2⟩
    simp only [readNumber, hpeek, hat, Bool.not_true, Bool.false_eq_true, if_false, hzero,
      htaken.1, hwhole, hpoint, hexponent, if_true]

/-- A whole number of 64 bits is read back. -/
theorem takes_readNumber {n : Nat} (h : n < UInt64.size) (hrest : EndsNumber rest) :
    Takes (readNumber false) ((Nat.toDigits 10 n).map octet ++ rest) (.integer n) rest := by
  intro c hc
  obtain ⟨d, hread, hd⟩ := readNumber_toDigits false h hc hrest
  exact ⟨d, hread, hd⟩

/-- So is the number after a minus sign, which is not zero. -/
theorem takes_readNumber_neg {n : Nat} (hpos : n ≠ 0) (h : n ≤ Nat.pow 2 63)
    (hrest : EndsNumber rest) :
    Takes (readNumber true) ((Nat.toDigits 10 n).map octet ++ rest) (.integer (-n)) rest := by
  intro c hc
  have hsmall : n < UInt64.size := Nat.lt_of_le_of_lt h (by decide)
  obtain ⟨d, hread, hd⟩ := readNumber_toDigits true hsmall hc hrest
  refine ⟨d, ?_, hd⟩
  rw [hread, finishWhole, if_neg (by decide), if_pos ⟨hpos, h⟩]

end DaemonRpc.Json

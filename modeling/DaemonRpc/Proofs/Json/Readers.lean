import DaemonRpc.Json.Decoder
import Mathlib.Data.List.TakeWhile

/-!
# What a reader takes from a text

Where in a text a reader stands matters for the words of its failures only: what it takes, and
whether it fails, is told by the octets that are left, and what it leaves is an end of these
(`Steady`). So there is no need to speak of places when saying what a text holds: a reader takes an
item from the start of octets, and leaves the rest (`Takes`).
-/

namespace DaemonRpc.Json

variable {α β : Type}

/-! ## Places -/

namespace Cursor

variable {c d : Cursor} {octets : List UInt8}

@[simp]
theorem rest_advance (c : Cursor) : c.advance.rest = c.rest.tail := by
  unfold advance
  split
  · next h => rw [h, List.tail_nil]
  · next h => rw [h, List.tail_cons]

theorem advance_congr (h : c.rest = d.rest) : c.advance.rest = d.advance.rest := by
  rw [rest_advance, rest_advance, h]

theorem advance_suffix (h : c.rest <:+ octets) : c.advance.rest <:+ octets := by
  rw [rest_advance]
  exact (List.tail_suffix _).trans h

theorem skipWhile_congr (p : UInt8 → Bool) (h : c.rest = d.rest) :
    (c.skipWhile p).rest = (d.skipWhile p).rest :=
  congrArg (List.dropWhile p) h

theorem skipWhile_suffix (p : UInt8 → Bool) (h : c.rest <:+ octets) :
    (c.skipWhile p).rest <:+ octets :=
  (List.dropWhile_suffix p).trans h

theorem peek?_congr (h : c.rest = d.rest) : c.peek? = d.peek? := congrArg List.head? h

theorem at?_congr (h : c.rest = d.rest) (char : Char) : c.at? char = d.at? char := by
  rw [at?, at?, peek?_congr h]

theorem atDigit_congr (h : c.rest = d.rest) : c.atDigit = d.atDigit := by
  rw [atDigit, atDigit, peek?_congr h]

theorem atExponent_congr (h : c.rest = d.rest) : c.atExponent = d.atExponent := by
  rw [atExponent, atExponent, at?_congr h, at?_congr h]

theorem takeDigits_congr (h : c.rest = d.rest) : c.takeDigits.1 = d.takeDigits.1 := by
  rw [takeDigits, takeDigits, h]

end Cursor

open Cursor

/-! ## Outcomes -/

/-- Two outcomes of reading octets are the same but for places and the words of failures, and what
is left is an end of the octets. -/
inductive Agree (octets : List UInt8) :
    Except Failure (α × Cursor) → Except Failure (α × Cursor) → Prop where
  | error (e e' : Failure) : Agree octets (.error e) (.error e')
  | ok (a : α) {c d : Cursor} (hrest : c.rest = d.rest) (hend : d.rest <:+ octets) :
      Agree octets (.ok (a, c)) (.ok (a, d))

/-- What the reader takes is told by the octets that are left, and it leaves an end of these. -/
def Steady (read : Reader α) : Prop :=
  ∀ ⦃c d : Cursor⦄, c.rest = d.rest → ∀ ⦃octets : List UInt8⦄, d.rest <:+ octets →
    Agree octets (read c) (read d)

/-- Readings one after the other agree if each does. -/
theorem Agree.bind {octets : List UInt8} {x y : Except Failure (α × Cursor)}
    {f g : α × Cursor → Except Failure (β × Cursor)} (h : Agree octets x y)
    (hnext : ∀ a, ∀ ⦃c d : Cursor⦄, c.rest = d.rest → d.rest <:+ octets →
      Agree octets (f (a, c)) (g (a, d))) :
    Agree octets (x >>= f) (y >>= g) := by
  cases h with
  | error e e' => exact .error e e'
  | ok a hrest hend => exact hnext a hrest hend

/-! ## Literals and strings -/

theorem steady_readIdent (expected : List Char) : Steady (readIdent expected) := by
  induction expected with
  | nil => exact fun c d h octets hend => .ok () h hend
  | cons char rest ih =>
    intro c d h octets hend
    rw [readIdent, readIdent, peek?_congr h]
    split
    · exact .error _ _
    · split
      · exact ih (advance_congr h) (advance_suffix hend)
      · exact .error _ _

theorem steady_readHex : Steady readHex := by
  intro c d h octets hend
  have hafter := advance_congr (advance_congr (advance_congr (advance_congr h)))
  have hafterEnd := advance_suffix (advance_suffix (advance_suffix (advance_suffix hend)))
  unfold readHex
  rw [h]
  split
  · dsimp only
    split
    · exact .ok _ hafter hafterEnd
    · exact .error _ _
  · exact .error _ _

theorem steady_readPairOctet (expected : Char) : Steady (readPairOctet expected) := by
  intro c d h octets hend
  rw [readPairOctet, readPairOctet, peek?_congr h]
  split
  · exact .error _ _
  · split
    · exact .ok () (advance_congr h) (advance_suffix hend)
    · exact .error _ _

theorem steady_readUnicodeEscape : Steady readUnicodeEscape := by
  intro c d h octets hend
  unfold readUnicodeEscape
  refine (steady_readHex h hend).bind fun first c d h hend => ?_
  dsimp only
  split
  · exact .error _ _
  · split
    · exact .ok _ h hend
    · refine (steady_readPairOctet '\\' h hend).bind fun _ c d h hend => ?_
      refine (steady_readPairOctet 'u' h hend).bind fun _ c d h hend => ?_
      refine (steady_readHex h hend).bind fun second c d h hend => ?_
      dsimp only
      split
      · exact .error _ _
      · exact .ok _ h hend

theorem steady_readEscape : Steady readEscape := by
  intro c d h octets hend
  rw [readEscape, readEscape, peek?_congr h]
  split
  · exact .error _ _
  · split
    · exact steady_readUnicodeEscape (advance_congr h) (advance_suffix hend)
    · split
      · exact .ok _ (advance_congr h) (advance_suffix hend)
      · exact .error _ _

theorem steady_readStringOctets (fuel : Nat) (taken : List UInt8) :
    Steady (readStringOctets fuel taken) := by
  induction fuel generalizing taken with
  | zero => exact fun c d _ octets _ => .error _ _
  | succ fuel ih =>
    intro c d h octets hend
    have hnext := advance_congr h
    have hnextEnd := advance_suffix hend
    rw [readStringOctets, readStringOctets, peek?_congr h]
    split
    · exact .error _ _
    · split
      · exact .ok _ h hend
      · split
        · have hescape := steady_readEscape hnext hnextEnd
          generalize readEscape c.advance = x, readEscape d.advance = y at hescape
          cases hescape with
          | error => exact .error _ _
          | ok octets hrest hend => exact ih _ hrest hend
        · split
          · exact .error _ _
          · exact ih _ hnext hnextEnd

theorem steady_readString : Steady readString := by
  intro c d h octets hend
  unfold readString
  rw [h]
  refine (steady_readStringOctets _ _ h hend).bind fun taken c d h hend => ?_
  dsimp only
  split
  · exact .ok _ (advance_congr h) (advance_suffix hend)
  · exact .error _ _

/-! ## Numbers -/

section Numbers

variable {octets : List UInt8} {c d : Cursor}

theorem agree_finishFloat (negative : Bool) (s : Scaled) (h : c.rest = d.rest)
    (hend : d.rest <:+ octets) :
    Agree octets (finishFloat negative s c) (finishFloat negative s d) := by
  unfold finishFloat
  split
  · exact .ok _ h hend
  · exact .error _ _

theorem agree_finishWhole (negative : Bool) (digits : Nat) (h : c.rest = d.rest)
    (hend : d.rest <:+ octets) :
    Agree octets (finishWhole negative digits c) (finishWhole negative digits d) := by
  unfold finishWhole
  split
  · exact .ok _ h hend
  · split
    · exact .ok _ h hend
    · exact agree_finishFloat true _ h hend

/-- An octet that may stand here is passed in both places or in none. -/
theorem advance_if_congr (passed : Bool) (h : c.rest = d.rest) (hend : d.rest <:+ octets) :
    (if passed then c.advance else c).rest = (if passed then d.advance else d).rest ∧
      (if passed then d.advance else d).rest <:+ octets := by
  split
  · exact ⟨advance_congr h, advance_suffix hend⟩
  · exact ⟨h, hend⟩

/-- The digits of an exponent are read up to the same octet. -/
theorem readExponentDigits_congr (fuel value : Nat) (h : c.rest = d.rest)
    (hend : d.rest <:+ octets) :
    (∃ c' d' : Cursor, readExponentDigits fuel value c = .error c' ∧
        readExponentDigits fuel value d = .error d' ∧ c'.rest = d'.rest ∧ d'.rest <:+ octets) ∨
      ∃ n, ∃ c' d' : Cursor, readExponentDigits fuel value c = .ok (n, c') ∧
        readExponentDigits fuel value d = .ok (n, d') ∧ c'.rest = d'.rest ∧
          d'.rest <:+ octets := by
  induction fuel generalizing value c d with
  | zero => exact .inr ⟨value, c, d, rfl, rfl, h, hend⟩
  | succ fuel ih =>
    rw [readExponentDigits, readExponentDigits, peek?_congr h]
    split
    · exact .inr ⟨value, c, d, rfl, rfl, h, hend⟩
    · split
      · exact ih _ (advance_congr h) (advance_suffix hend)
      · exact .inl ⟨_, _, rfl, rfl, advance_congr h, advance_suffix hend⟩

theorem steady_readExponent (negative : Bool) (s : Scaled) : Steady (readExponent negative s) := by
  intro c d h octets hend
  unfold readExponent
  rw [at?_congr h, at?_congr h]
  dsimp only
  -- From here on the sign is passed.
  have hsigned := advance_if_congr (d.at? '+' || d.at? '-') h hend
  generalize (if (d.at? '+' || d.at? '-') = true then c.advance else c) = c',
    (if (d.at? '+' || d.at? '-') = true then d.advance else d) = d' at hsigned ⊢
  obtain ⟨hrest, hsignedEnd⟩ := hsigned
  rw [hrest, atDigit_congr hrest]
  split
  · exact .error _ _
  · split
    · exact .error _ _
    · rcases readExponentDigits_congr d'.rest.length 0 hrest hsignedEnd with
        ⟨c'', d'', hc, hd, hdigits, hmore⟩ | ⟨n, c'', d'', hc, hd, hdigits, hmore⟩
      · rw [hc, hd]
        dsimp only
        split
        · exact .error _ _
        · exact .ok _ (skipWhile_congr _ hdigits) (skipWhile_suffix _ hmore)
      · rw [hc, hd]
        exact agree_finishFloat negative _ hdigits hmore

theorem steady_readFraction (negative : Bool) (s : Scaled) : Steady (readFraction negative s) := by
  intro c d h octets hend
  have hafter : c.takeDigits.2.rest = d.takeDigits.2.rest := skipWhile_congr _ h
  have hafterEnd : d.takeDigits.2.rest <:+ octets := skipWhile_suffix _ hend
  unfold readFraction
  dsimp only
  rw [takeDigits_congr h, atExponent_congr hafter, h]
  split
  · exact .error _ _
  · split
    · exact steady_readExponent negative _ (advance_congr hafter) (advance_suffix hafterEnd)
    · exact agree_finishFloat negative _ hafter hafterEnd

theorem steady_readNumber (negative : Bool) : Steady (readNumber negative) := by
  intro c d h octets hend
  have hafter : c.takeDigits.2.rest = d.takeDigits.2.rest := skipWhile_congr _ h
  have hafterEnd : d.takeDigits.2.rest <:+ octets := skipWhile_suffix _ hend
  have hmore := advance_congr hafter
  have hmoreEnd := advance_suffix hafterEnd
  unfold readNumber
  dsimp only
  rw [peek?_congr h, takeDigits_congr h, atDigit_congr h, atDigit_congr (advance_congr h),
    at?_congr hafter, atExponent_congr hafter]
  split
  · exact .error _ _
  · split
    · exact .error _ _
    · split
      · exact .error _ _
      · repeat' split
        · exact steady_readFraction negative _ hmore hmoreEnd
        · exact steady_readExponent negative _ hmore hmoreEnd
        · exact agree_finishWhole negative _ hafter hafterEnd
        · exact agree_finishFloat negative _ hafter hafterEnd

end Numbers

/-! ## Typed items -/

/-- A reader that looks at the next item is steady, if it is for each first octet. -/
theorem steady_readItem {read : UInt8 → Reader α} (h : ∀ b, Steady (read b)) :
    Steady (readItem read) := by
  intro c d hrest octets hend
  have hblanks : c.skipBlanks.rest = d.skipBlanks.rest := skipWhile_congr _ hrest
  unfold readItem
  dsimp only
  rw [peek?_congr hblanks]
  split
  · exact .error _ _
  · exact h _ hblanks (skipWhile_suffix _ hend)

theorem steady_string : Steady Decoder.string.ofText := by
  unfold Decoder.string
  dsimp only
  refine steady_readItem fun b c d h octets hend => ?_
  split
  · exact steady_readString (advance_congr h) (advance_suffix hend)
  · exact .error _ _

theorem steady_integer (low high : Int) (typeName : String) :
    Steady (Decoder.integer low high typeName).ofText := by
  unfold Decoder.integer
  dsimp only
  refine steady_readItem fun b c d h octets hend => ?_
  rw [atDigit_congr h]
  split
  · split
    · refine (steady_readNumber true (advance_congr h) (advance_suffix hend)).bind
        fun n c d h hend => ?_
      dsimp only
      split
      · exact .ok _ h hend
      · exact .error _ _
    · refine (steady_readNumber false h hend).bind fun n c d h hend => ?_
      dsimp only
      split
      · exact .ok _ h hend
      · exact .error _ _
  · exact .error _ _

theorem steady_optional {decoder : Decoder α} (h : Steady decoder.ofText) :
    Steady decoder.optional.ofText := by
  intro c d hrest octets hend
  have hblanks : c.skipBlanks.rest = d.skipBlanks.rest := skipWhile_congr _ hrest
  have hblanksEnd : d.skipBlanks.rest <:+ octets := skipWhile_suffix _ hend
  unfold Decoder.optional
  dsimp only
  rw [at?_congr hblanks]
  split
  · exact (steady_readIdent ['u', 'l', 'l'] (advance_congr hblanks)
      (advance_suffix hblanksEnd)).bind fun _ c d h hend => .ok none h hend
  · exact (h hblanks hblanksEnd).bind fun a c d h hend => .ok (some a) h hend

/-! ## Items that are skipped -/

theorem steady_readColon : Steady readColon := by
  intro c d hrest octets hend
  have hblanks : c.skipBlanks.rest = d.skipBlanks.rest := skipWhile_congr _ hrest
  have hblanksEnd : d.skipBlanks.rest <:+ octets := skipWhile_suffix _ hend
  unfold readColon
  dsimp only
  rw [peek?_congr hblanks]
  split
  · exact .error _ _
  · split
    · exact .ok () (advance_congr hblanks) (advance_suffix hblanksEnd)
    · exact .error _ _

theorem steady_skipEscape : Steady skipEscape := by
  intro c d h octets hend
  rw [skipEscape, skipEscape, peek?_congr h]
  split
  · exact .error _ _
  · split
    · have hhex := steady_readHex (advance_congr h) (advance_suffix hend)
      generalize readHex c.advance = x, readHex d.advance = y at hhex
      cases hhex with
      | error => exact .error _ _
      | ok n hrest hend => exact .ok () hrest hend
    · split
      · exact .ok () (advance_congr h) (advance_suffix hend)
      · exact .error _ _

theorem steady_skipString (fuel : Nat) : Steady (skipString fuel) := by
  induction fuel with
  | zero => exact fun c d _ octets _ => .error _ _
  | succ fuel ih =>
    intro c d h octets hend
    have hnext := advance_congr h
    have hnextEnd := advance_suffix hend
    rw [skipString, skipString, peek?_congr h]
    split
    · exact .error _ _
    · split
      · exact .ok () hnext hnextEnd
      · split
        · have hescape := steady_skipEscape hnext hnextEnd
          generalize skipEscape c.advance = x, skipEscape d.advance = y at hescape
          cases hescape with
          | error => exact .error _ _
          | ok _ hrest hend => exact ih hrest hend
        · split
          · exact .error _ _
          · exact ih hnext hnextEnd

theorem steady_skipExponent : Steady skipExponent := by
  intro c d h octets hend
  unfold skipExponent
  rw [at?_congr h, at?_congr h]
  dsimp only
  have hsigned := advance_if_congr (d.at? '+' || d.at? '-') h hend
  generalize (if (d.at? '+' || d.at? '-') = true then c.advance else c) = c',
    (if (d.at? '+' || d.at? '-') = true then d.advance else d) = d' at hsigned ⊢
  obtain ⟨hrest, hsignedEnd⟩ := hsigned
  rw [atDigit_congr hrest]
  split
  · exact .ok () (skipWhile_congr _ hrest) (skipWhile_suffix _ hsignedEnd)
  · exact .error _ _

theorem steady_skipNumber : Steady skipNumber := by
  intro c d h octets hend
  have hwhole : c.takeDigits.2.rest = d.takeDigits.2.rest := skipWhile_congr _ h
  have hwholeEnd : d.takeDigits.2.rest <:+ octets := skipWhile_suffix _ hend
  have hpoint := advance_congr hwhole
  have hpointEnd := advance_suffix hwholeEnd
  have hfraction : c.takeDigits.2.advance.takeDigits.2.rest =
      d.takeDigits.2.advance.takeDigits.2.rest := skipWhile_congr _ hpoint
  have hfractionEnd : d.takeDigits.2.advance.takeDigits.2.rest <:+ octets :=
    skipWhile_suffix _ hpointEnd
  unfold skipNumber
  dsimp only
  rw [atDigit_congr h, at?_congr h, atDigit_congr (advance_congr h), at?_congr hwhole,
    atExponent_congr hwhole, takeDigits_congr hpoint, atExponent_congr hfraction]
  repeat' split
  · exact .error _ _
  · exact .error _ _
  · exact .error _ _
  · exact steady_skipExponent (advance_congr hfraction) (advance_suffix hfractionEnd)
  · exact .ok () hfraction hfractionEnd
  · exact steady_skipExponent hpoint hpointEnd
  · exact .ok () hwhole hwholeEnd

theorem steady_skipToValue (around : Enclosing) : Steady (skipToValue around) := by
  intro c d h octets hend
  cases around with
  | list => exact .ok () h hend
  | object =>
    have hblanks : c.skipBlanks.rest = d.skipBlanks.rest := skipWhile_congr _ h
    have hblanksEnd : d.skipBlanks.rest <:+ octets := skipWhile_suffix _ hend
    unfold skipToValue
    dsimp only
    rw [peek?_congr hblanks, hblanks]
    split
    · exact .error _ _
    · split
      · exact .error _ _
      · exact (steady_skipString _ (advance_congr hblanks) (advance_suffix hblanksEnd)).bind
          fun _ c d h hend => steady_readColon h hend

theorem steady_leave (fuel : Nat) (afterItem : Bool) (around : List Enclosing) :
    Steady (leave fuel afterItem around) := by
  induction fuel generalizing afterItem around with
  | zero => exact fun c d h octets hend => .ok none h hend
  | succ fuel ih =>
    intro c d h octets hend
    cases around with
    | nil => exact .ok none h hend
    | cons inside outer =>
      have hblanks : c.skipBlanks.rest = d.skipBlanks.rest := skipWhile_congr _ h
      have hblanksEnd : d.skipBlanks.rest <:+ octets := skipWhile_suffix _ hend
      have hnext := advance_congr hblanks
      have hnextEnd := advance_suffix hblanksEnd
      rw [leave, leave, peek?_congr hblanks]
      split
      · exact .error _ _
      · split
        · exact .ok _ hnext hnextEnd
        · split
          · exact ih _ _ hnext hnextEnd
          · split
            · exact .error _ _
            · exact .ok _ hblanks hblanksEnd

/-- Behind a value, or behind the opening of a container, the rest of the containers is passed. -/
def skipBehind (fuel : Nat) (around entered : List Enclosing) : Reader Unit := fun c => do
  let (next, c) ← leave (entered.length + 1) (entered.length = around.length) entered c
  match next with
  | none => return ((), c)
  | some (inside, outer) =>
    let ((), c) ← skipToValue inside c
    skipValueWithin fuel (inside :: outer) c

theorem steady_skipBehind {fuel : Nat} (h : ∀ around, Steady (skipValueWithin fuel around))
    (around entered : List Enclosing) : Steady (skipBehind fuel around entered) := by
  intro c d hrest octets hend
  refine (steady_leave _ _ _ hrest hend).bind fun next c d hrest hend => ?_
  cases next with
  | none => exact .ok () hrest hend
  | some inner =>
    exact (steady_skipToValue inner.1 hrest hend).bind fun _ c d hrest hend => h _ hrest hend

theorem steady_skipValueWithin (fuel : Nat) (around : List Enclosing) :
    Steady (skipValueWithin fuel around) := by
  induction fuel generalizing around with
  | zero => exact fun c d _ octets _ => .error _ _
  | succ fuel ih =>
    intro c d h octets hend
    have hblanks : c.skipBlanks.rest = d.skipBlanks.rest := skipWhile_congr _ h
    have hblanksEnd : d.skipBlanks.rest <:+ octets := skipWhile_suffix _ hend
    have hnext := advance_congr hblanks
    have hnextEnd := advance_suffix hblanksEnd
    have hbehind := steady_skipBehind ih around
    unfold skipValueWithin
    dsimp only
    rw [peek?_congr hblanks, atDigit_congr hblanks, hblanks]
    repeat' split
    · exact .error _ _
    · exact (steady_readIdent _ hnext hnextEnd).bind fun _ c d h hend => hbehind around h hend
    · exact (steady_readIdent _ hnext hnextEnd).bind fun _ c d h hend => hbehind around h hend
    · exact (steady_readIdent _ hnext hnextEnd).bind fun _ c d h hend => hbehind around h hend
    · exact (steady_skipNumber hnext hnextEnd).bind fun _ c d h hend => hbehind around h hend
    · exact (steady_skipNumber hblanks hblanksEnd).bind fun _ c d h hend => hbehind around h hend
    · exact (steady_skipString _ hnext hnextEnd).bind fun _ c d h hend => hbehind around h hend
    · exact hbehind (.list :: around) hnext hnextEnd
    · exact hbehind (.object :: around) hnext hnextEnd
    · exact .error _ _

theorem steady_skipValue : Steady skipValue := by
  intro c d h octets hend
  rw [skipValue, skipValue, h]
  exact steady_skipValueWithin _ _ h hend

/-! ## What octets hold -/

/-- The reader takes an item from the start of the octets, wherever they stand, and leaves the
rest. -/
def Takes (read : Reader α) (octets : List UInt8) (a : α) (rest : List UInt8) : Prop :=
  ∀ c : Cursor, c.rest = octets → ∃ d : Cursor, read c = .ok (a, d) ∧ d.rest = rest

/-- After blanks the octets go on with this character. -/
def Mark (char : Char) (octets rest : List UInt8) : Prop :=
  ∃ blanks, (∀ b ∈ blanks, isSeparator b = true) ∧ octets = blanks ++ octet char :: rest

/-- The octets are blanks. -/
def AllSeparators (octets : List UInt8) : Prop := ∀ b ∈ octets, isSeparator b = true

section

variable {read : Reader α} {octets rest : List UInt8} {a : α} {c d : Cursor}

/-- One reading of octets tells all others. -/
theorem Steady.takes (h : Steady read) (hread : read c = .ok (a, d)) :
    Takes read c.rest a d.rest := by
  intro c' hc'
  have hagree := h hc'.symm (List.suffix_refl _)
  rw [hread] at hagree
  generalize hread' : read c' = x at hagree
  cases hagree with
  | @ok _ _ d' hrest _ => exact ⟨d', rfl, hrest.symm⟩

theorem Steady.suffix_of_takes (h : Steady read) (ht : Takes read octets a rest) :
    rest <:+ octets := by
  obtain ⟨d, hread, rfl⟩ := ht ⟨octets, ⟨1, 0⟩⟩ rfl
  have hagree := h (rfl : (⟨octets, ⟨1, 0⟩⟩ : Cursor).rest = octets) (List.suffix_refl _)
  rw [hread] at hagree
  cases hagree with
  | ok _ _ hend => exact hend

/-- Octets begin with one item at most. -/
theorem Takes.unique {a' : α} {rest' : List UInt8} (h : Takes read octets a rest)
    (h' : Takes read octets a' rest') : a = a' ∧ rest = rest' := by
  obtain ⟨d, hread, rfl⟩ := h ⟨octets, ⟨1, 0⟩⟩ rfl
  obtain ⟨d', hread', rfl⟩ := h' ⟨octets, ⟨1, 0⟩⟩ rfl
  rw [hread] at hread'
  cases hread'
  exact ⟨rfl, rfl⟩

theorem mark_iff {char : Char} (hchar : isSeparator (octet char) = false) :
    Mark char octets rest ↔ octets.dropWhile isSeparator = octet char :: rest := by
  constructor
  · rintro ⟨blanks, hblanks, rfl⟩
    rw [List.dropWhile_append_of_pos hblanks, List.dropWhile_cons, hchar]
    rfl
  · intro h
    refine ⟨octets.takeWhile isSeparator, fun b hb => List.mem_takeWhile_imp hb, ?_⟩
    rw [← h, List.takeWhile_append_dropWhile]

/-- Only one mark can follow, and what follows it is told by the octets. -/
theorem Mark.unique {char char' : Char} {rest' : List UInt8} (h : Mark char octets rest)
    (h' : Mark char' octets rest') (hchar : isSeparator (octet char) = false)
    (hchar' : isSeparator (octet char') = false) : octet char = octet char' ∧ rest = rest' := by
  have hsame := ((mark_iff hchar).1 h).symm.trans ((mark_iff hchar').1 h')
  exact List.cons.inj hsame

end

end DaemonRpc.Json

import DaemonRpc.Text.Validation
import DaemonRpc.Proofs.Utf8.Lossy
import Mathlib.Data.List.Induction

/-!
# Incomplete or malformed

`Found octets finding` says what a strict check of octets should find, without a machine: after the
characters at the start comes nothing, the beginning of a character at which the input ends, or a
malformed part that no later octet can mend. `check` finds exactly that (`check_iff`).

The octet machine of `Text.Utf8` is tied to the same places: it passes over characters
(`feed_encode_append`), writes one replacement for a malformed part (`feed_malformed`), and holds
what is incomplete (`feed_of_isHeld`). So what it holds is the end of the octets, and its text is
that of the octets before (`exists_lossy_of_feed`).
-/

namespace DaemonRpc.Utf8

/-- What a strict check finds in octets. -/
inductive Found : List UInt8 → Finding → Prop where
  | wellFormed (text : List Char) : Found (encode text) .wellFormed
  | malformed (text : List Char) {part rest : List UInt8} :
      IsMalformed part rest → ¬ Begins (part ++ rest) →
        Found (encode text ++ (part ++ rest)) (.malformed (encode text).length part.length)
  | incomplete (text : List Char) {held : List UInt8} :
      IsHeld held → Found (encode text ++ held) (.incomplete (encode text).length)

/-! ## What may be held -/

@[simp] theorem continues_nil (octet : UInt8) : continues [] octet = false := rfl

/-- An octet that leads a longer sequence is held. -/
theorem isHeld_singleton {octet : UInt8} {n : Nat} (hw : width octet = some n) (hn : n ≠ 1) :
    IsHeld [octet] where
  ne_nil := List.cons_ne_nil _ _
  begins := begins_iff.2 ⟨n, hw, (width_bounds hw).1, trivial⟩
  not_whole := by simpa [isWhole, hw] using hn

/-- An octet that carries on what is held is held with it until the sequence is whole. -/
theorem IsHeld.concat {held : List UInt8} {octet : UInt8} (h : IsHeld held)
    (hc : continues held octet = true) (hw : isWhole (held ++ [octet]) = false) :
    IsHeld (held ++ [octet]) where
  ne_nil := by simp
  begins := (begins_concat_iff h).2 hc
  not_whole := hw

/-- What begins a character and goes on with another octet is held before that octet. -/
theorem Begins.isHeld_init {held : List UInt8} {octet : UInt8} (h : Begins (held ++ [octet]))
    (hne : held ≠ []) : IsHeld held where
  ne_nil := hne
  begins := h.of_prefix (List.prefix_append _ _)
  not_whole := by
    match held with
    | [] => exact absurd rfl hne
    | lead :: tail =>
      -- A whole sequence would leave no room for the octet.
      rw [List.cons_append] at h
      obtain ⟨n, hw, hlt, -⟩ := begins_iff.1 h
      rw [List.length_append, List.length_singleton] at hlt
      simp only [isWhole, hw, List.length_cons, beq_eq_false_iff_ne, ne_eq, Option.some.injEq]
      omega

/-- What is held is less than the octets of a character. -/
theorem IsHeld.exists_char {held : List UInt8} (h : IsHeld held) :
    ∃ c, held <+: String.utf8EncodeChar c ∧ held ≠ String.utf8EncodeChar c := by
  obtain ⟨c, hc⟩ := h.begins
  refine ⟨c, hc, ?_⟩
  rintro rfl
  exact h.not_encode_prefix c List.prefix_rfl

/-- What is held is at most three octets. -/
theorem IsHeld.length_le {held : List UInt8} (h : IsHeld held) : held.length ≤ 3 := by
  obtain ⟨c, hc, hne⟩ := h.exists_char
  have hlt := Nat.lt_of_le_of_ne hc.length_le fun hlen => hne (hc.eq_of_length hlen)
  have hfour := c.utf8Size_le_four
  rw [← String.length_utf8EncodeChar] at hfour
  omega

/-- An octet that leads no sequence begins no character. -/
theorem not_begins_of_width_none {octet : UInt8} (h : width octet = none) (tail : List UInt8) :
    ¬ Begins (octet :: tail) := by
  intro hb
  obtain ⟨n, hw, -⟩ := begins_iff.1 hb
  simp [h] at hw

/-! ## What `check` finds -/

/-- Checking goes on from characters and from what is held after them. -/
theorem found_checkFrom {held : List UInt8} (h : MayHold held) (text : List Char)
    (octets : List UInt8) :
    Found (encode text ++ (held ++ octets)) (checkFrom (encode text).length held octets) := by
  induction octets generalizing text held with
  | nil =>
    rcases h with rfl | h
    · simpa [checkFrom] using Found.wellFormed text
    · simpa [checkFrom, h.ne_nil] using Found.incomplete text h
  | cons octet octets ih =>
    -- A character that is complete joins the text before.
    have hnext : ∀ {sequence : List UInt8}, String.utf8EncodeChar (assemble sequence) = sequence →
        Found (encode text ++ (sequence ++ octets))
          (checkFrom ((encode text).length + sequence.length) [] octets) := by
      intro sequence hs
      have := ih (.inl rfl) (text ++ [assemble sequence])
      simpa [encode_append, encode_cons, hs, encode] using this
    rcases h with rfl | h
    · simp only [checkFrom, List.isEmpty_nil, if_true, List.nil_append]
      split
      · next hw =>
        exact .malformed text (isMalformed_of_width_none hw octets)
          (not_begins_of_width_none hw octets)
      · next hw =>
        have hs : IsSequence [octet] := ⟨hw, trivial⟩
        exact hnext (encode_assemble hs)
      · next n hn hw => exact ih (.inr (isHeld_singleton hw (by simpa [hw] using hn))) text
    · have hne : held.isEmpty = false := by simpa using h.ne_nil
      have hconcat : held ++ octet :: octets = (held ++ [octet]) ++ octets := by simp
      simp only [checkFrom, hne]
      by_cases hc : continues held octet = true
      · by_cases hw : isWhole (held ++ [octet]) = true
        · simp only [hc, hw, if_true]
          rw [hconcat]
          exact hnext (encode_assemble_of_whole ((begins_concat_iff h).2 hc) hw)
        · simp only [hc, hw, if_true]
          rw [hconcat]
          exact ih (.inr (h.concat hc (by simpa using hw))) text
      · simp only [hc]
        refine .malformed text (h.isMalformed fun o more he => ?_) fun hb => ?_
        · obtain ⟨rfl, -⟩ := List.cons.inj he
          simpa using hc
        · rw [hconcat] at hb
          exact hc ((begins_concat_iff h).1 (hb.of_prefix (List.prefix_append _ _)))

/-- Where the characters at the start end is determined. -/
theorem encode_append_left_inj {text text' : List Char} {left left' : List UInt8}
    (he : encode text ++ left = encode text' ++ left')
    (hl : ∀ c, ¬ String.utf8EncodeChar c <+: left)
    (hl' : ∀ c, ¬ String.utf8EncodeChar c <+: left') : text = text' ∧ left = left' := by
  induction text generalizing text' with
  | nil =>
    cases text' with
    | nil => exact ⟨rfl, he⟩
    | cons c text' =>
      rw [encode_cons, List.append_assoc] at he
      exact absurd ⟨_, he.symm⟩ (hl c)
  | cons c text ih =>
    rw [encode_cons, List.append_assoc] at he
    cases text' with
    | nil => exact absurd ⟨_, he⟩ (hl' c)
    | cons d text' =>
      rw [encode_cons, List.append_assoc] at he
      obtain ⟨rfl, hrest⟩ := encode_append_inj he
      obtain ⟨rfl, hleft⟩ := ih hrest
      exact ⟨rfl, hleft⟩

/-- What is found after the characters at the start of octets. -/
theorem Found.cases_left {octets : List UInt8} {finding : Finding} (h : Found octets finding) :
    ∃ text left, octets = encode text ++ left ∧ (∀ c, ¬ String.utf8EncodeChar c <+: left) ∧
      ((left = [] ∧ finding = .wellFormed) ∨
        (∃ part rest, left = part ++ rest ∧ IsMalformed part rest ∧ ¬ Begins left ∧
          finding = .malformed (encode text).length part.length) ∨
        (IsHeld left ∧ finding = .incomplete (encode text).length)) := by
  cases h with
  | wellFormed text =>
    refine ⟨text, [], by simp, fun c hc => ?_, .inl ⟨rfl, rfl⟩⟩
    exact String.utf8EncodeChar_ne_nil (List.prefix_nil.1 hc)
  | malformed text hm hb =>
    exact ⟨text, _, rfl, hm.no_character, .inr (.inl ⟨_, _, rfl, hm, hb, rfl⟩)⟩
  | incomplete text hheld =>
    exact ⟨text, _, rfl, hheld.not_encode_prefix, .inr (.inr ⟨hheld, rfl⟩)⟩

/-- A check finds one thing. -/
theorem Found.unique {octets : List UInt8} {finding finding' : Finding} (h : Found octets finding)
    (h' : Found octets finding') : finding = finding' := by
  obtain ⟨text, left, rfl, hno, hfound⟩ := h.cases_left
  obtain ⟨text', left', he, hno', hfound'⟩ := h'.cases_left
  obtain ⟨rfl, rfl⟩ := encode_append_left_inj he hno hno'
  rcases hfound with ⟨rfl, rfl⟩ | ⟨part, rest, rfl, hm, hb, rfl⟩ | ⟨hh, rfl⟩ <;>
    rcases hfound' with ⟨hl, rfl⟩ | ⟨part', rest', hl, hm', hb', rfl⟩ | ⟨hh', rfl⟩
  · rfl
  · exact absurd (List.append_eq_nil_iff.1 hl.symm).1 hm'.ne_nil
  · exact absurd rfl hh'.ne_nil
  · exact absurd (List.append_eq_nil_iff.1 hl).1 hm.ne_nil
  · rw [(hm.append_inj hm' hl).1]
  · exact absurd hh'.begins hb
  · exact absurd hl hh.ne_nil
  · exact absurd hh.begins hb'
  · rfl

/-- `check` finds what there is to find. -/
theorem check_iff {octets : List UInt8} {finding : Finding} :
    check octets = finding ↔ Found octets finding := by
  have hcheck : Found octets (check octets) := by
    simpa [encode, check] using found_checkFrom (.inl rfl) [] octets
  constructor
  · rintro rfl
    exact hcheck
  · exact hcheck.unique

/-! ## The machine at the same places -/

/-- The machine holds what it may hold. -/
theorem feed_of_isHeld {held : List UInt8} (h : IsHeld held) : feed [] held = ([], held) := by
  -- Octet by octet from the left: each one carries on what is held before it.
  induction held using List.reverseRecOn with
  | nil => exact absurd rfl h.ne_nil
  | append_singleton init octet ih =>
    rw [feed_append]
    by_cases hinit : init = []
    · subst hinit
      obtain ⟨n, hw, -⟩ := begins_iff.1 h.begins
      have hn : n ≠ 1 := by simpa [isWhole, hw] using h.not_whole
      simp only [feed, step, start, hw, List.nil_append]
      split <;> simp_all
    · have hheld := h.begins.isHeld_init hinit
      rw [ih hheld]
      simp [feed, step, (begins_concat_iff hheld).1 h.begins, h.not_whole]

theorem feed_of_mayHold {held : List UInt8} (h : MayHold held) : feed [] held = ([], held) := by
  rcases h with rfl | h
  · rfl
  · exact feed_of_isHeld h

/-- The character of a sequence is the one that is written so. -/
theorem assemble_encode (c : Char) : assemble (String.utf8EncodeChar c) = c := by
  have h := encode_assemble (isSequence_encode c)
  exact (encode_append_inj (congrArg (· ++ []) h)).1

theorem isWhole_encode (c : Char) : isWhole (String.utf8EncodeChar c) = true := by
  have h := isSequence_encode c
  match hc : String.utf8EncodeChar c with
  | [] => exact absurd hc String.utf8EncodeChar_ne_nil
  | lead :: tail =>
    rw [hc] at h
    simp [isWhole, h.1]

/-- The machine reads back a character. -/
theorem feed_encodeChar (c : Char) : feed [] (String.utf8EncodeChar c) = ([c], []) := by
  have hassemble := assemble_encode c
  have hwhole := isWhole_encode c
  have hbegins : Begins (String.utf8EncodeChar c) := ⟨c, List.prefix_rfl⟩
  -- All octets but the last are held, and the last one completes the sequence.
  rcases List.eq_nil_or_concat (String.utf8EncodeChar c) with hc | ⟨init, octet, hc⟩
  · exact absurd hc String.utf8EncodeChar_ne_nil
  rw [List.concat_eq_append] at hc
  rw [hc] at hassemble hwhole hbegins ⊢
  by_cases hinit : init = []
  · subst hinit
    have hw : width octet = some 1 := by simpa [isWhole] using hwhole
    have ha : assemble [octet] = c := hassemble
    simp [feed, step, start, hw, ha]
  · have hheld := hbegins.isHeld_init hinit
    rw [feed_append, feed_of_isHeld hheld]
    simp [feed, step, (begins_concat_iff hheld).1 hbegins, hwhole, hassemble]

/-- The machine passes over characters. -/
theorem feed_encode_append (text : List Char) (rest : List UInt8) :
    feed [] (encode text ++ rest) = (text ++ (feed [] rest).1, (feed [] rest).2) := by
  induction text with
  | nil => rfl
  | cons c text ih =>
    rw [encode_cons, List.append_assoc, feed_append, feed_encodeChar, ih]
    rfl

/-- The machine writes one replacement for a malformed part that nothing can mend. -/
theorem feed_malformed {part rest : List UInt8} (hm : IsMalformed part rest)
    (hb : ¬ Begins (part ++ rest)) :
    feed [] (part ++ rest) = (replacement :: (feed [] rest).1, (feed [] rest).2) := by
  by_cases hpart : Begins part
  · -- The part is held until an octet comes that does not carry it on.
    match rest with
    | [] => exact absurd hpart (by simpa using hb)
    | octet :: rest =>
      have hwhole : isWhole part = false := by
        rw [Bool.eq_false_iff]
        intro hw
        refine hm.no_character (assemble part) ?_
        rw [encode_assemble_of_whole hpart hw]
        exact List.prefix_append _ _
      have hheld : IsHeld part := ⟨hm.ne_nil, hpart, hwhole⟩
      have hc : continues part octet = false := by
        rw [Bool.eq_false_iff, ne_eq, ← begins_concat_iff hheld]
        exact hm.longest _ ⟨rest, by simp⟩ (by simp)
      have hne : part.isEmpty = false := by simpa using hm.ne_nil
      rw [feed_append, feed_of_isHeld hheld]
      simp [feed, step, hc, hne]
  · have hone := hm.begins_or_single.resolve_left hpart
    obtain ⟨octet, rfl⟩ := List.length_eq_one_iff.1 hone
    have hw : width octet = none := by
      rw [Option.eq_none_iff_forall_not_mem]
      exact fun n hn => hpart (begins_iff.2 ⟨n, hn, (width_bounds hn).1, trivial⟩)
    simp [feed, step, start, hw]

/-- A malformed part is one also if less comes after it. -/
theorem IsMalformed.of_append {part rest more : List UInt8} (h : IsMalformed part (rest ++ more)) :
    IsMalformed part rest where
  ne_nil := h.ne_nil
  begins_or_single := h.begins_or_single
  no_character c hp := h.no_character c (hp.trans ⟨more, by simp⟩)
  longest longer hp hlt := h.longest longer (hp.trans ⟨more, by simp⟩) hlt

/-- What the machine holds is the end of the octets, and its text is that of the octets before. -/
theorem exists_lossy_of_feed (octets : List UInt8) :
    ∃ before, octets = before ++ (feed [] octets).2 ∧ Lossy before (feed [] octets).1 := by
  -- From one malformed part to the next: after each there are fewer octets.
  induction hn : octets.length using Nat.strongRecOn generalizing octets with
  | ind n ih =>
    have hfound := check_iff.1 (rfl : check octets = _)
    generalize check octets = finding at hfound
    cases hfound with
    | wellFormed text =>
      have hfeed := feed_encode_append text []
      rw [List.append_nil] at hfeed
      refine ⟨encode text, by simp [hfeed, feed], ?_⟩
      simpa [hfeed, feed] using Lossy.nil.encode_append text
    | incomplete text hheld =>
      refine ⟨encode text, by simp [feed_encode_append, feed_of_isHeld hheld], ?_⟩
      simpa [feed_encode_append, feed_of_isHeld hheld] using Lossy.nil.encode_append text
    | malformed text hm hb =>
      next part rest =>
      have hpos := List.length_pos_iff.2 hm.ne_nil
      obtain ⟨before, hrest, hlossy⟩ := ih rest.length
        (by simp only [List.length_append] at hn; omega) rest rfl
      rw [feed_encode_append, feed_malformed hm hb]
      refine ⟨encode text ++ (part ++ before), ?_, ?_⟩
      · simp [← hrest]
      · rw [hrest] at hm
        exact (Lossy.malformed hm.of_append hlossy).encode_append text

end DaemonRpc.Utf8

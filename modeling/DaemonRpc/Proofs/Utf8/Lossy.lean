import DaemonRpc.Proofs.Utf8.Sequence
import Mathlib.Tactic.ByContra

/-!
# Lossy decoding

`Lossy octets text` says what it is to decode octets with one U+FFFD for each maximal malformed
part, without a machine: at each place stands either the sequence of a character, or a part that
begins no character with the octet after it. The text is unique (`Lossy.unique`), and the octet
machine finds it (`lossy_iff`), also when it is stopped and continued anywhere
(`lossy_feed`).
-/

namespace DaemonRpc.Utf8

/-- `part` is the maximal malformed part at the start of `part ++ rest`: no character stands there,
and it is the longest beginning of a character, or one octet if there is none. -/
structure IsMalformed (part rest : List UInt8) : Prop where
  ne_nil : part ≠ []
  no_character : ∀ c, ¬ String.utf8EncodeChar c <+: part ++ rest
  begins_or_single : Begins part ∨ part.length = 1
  longest : ∀ longer, longer <+: part ++ rest → part.length < longer.length → ¬ Begins longer

/-- The octets decode to the text, with a replacement for each maximal malformed part. -/
inductive Lossy : List UInt8 → List Char → Prop where
  | nil : Lossy [] []
  | character (c : Char) {rest : List UInt8} {text : List Char} :
      Lossy rest text → Lossy (String.utf8EncodeChar c ++ rest) (c :: text)
  | malformed {part rest : List UInt8} {text : List Char} :
      IsMalformed part rest → Lossy rest text → Lossy (part ++ rest) (replacement :: text)

/-! ## The text is unique -/

/-- Which character stands at the start is determined. -/
theorem encode_append_inj {c d : Char} {a b : List UInt8}
    (h : String.utf8EncodeChar c ++ a = String.utf8EncodeChar d ++ b) : c = d ∧ a = b := by
  have hcd : c = d := by
    have hb := congrArg (fun l : List UInt8 => l.toByteArray.utf8DecodeChar? 0) h
    simpa [ByteArray.utf8DecodeChar?_utf8EncodeChar_append] using hb
  subst hcd
  exact ⟨rfl, List.append_cancel_left h⟩

/-- Two malformed parts at the start of the same octets have the same length. -/
theorem IsMalformed.length_le {part part' rest rest' : List UInt8} (h : IsMalformed part rest)
    (h' : IsMalformed part' rest') (he : part ++ rest = part' ++ rest') :
    part.length ≤ part'.length := by
  rcases h.begins_or_single with hb | hone
  · by_contra hlt
    exact h'.longest part (he ▸ List.prefix_append _ _) (by omega) hb
  · have := List.length_pos_iff.2 h'.ne_nil
    omega

/-- The malformed part at the start is determined. -/
theorem IsMalformed.append_inj {part part' rest rest' : List UInt8} (h : IsMalformed part rest)
    (h' : IsMalformed part' rest') (he : part ++ rest = part' ++ rest') :
    part = part' ∧ rest = rest' :=
  List.append_inj he (Nat.le_antisymm (h.length_le h' he) (h'.length_le h he.symm))

/-- Octets decode to one text. -/
theorem Lossy.unique {octets : List UInt8} {text text' : List Char} (h : Lossy octets text)
    (h' : Lossy octets text') : text = text' := by
  -- Which of the three rules applies is determined by the octets, and so is where it ends.
  induction h generalizing text' with
  | nil =>
    generalize ho : ([] : List UInt8) = octets at h'
    cases h' with
    | nil => rfl
    | character c _ =>
      exact absurd (List.append_eq_nil_iff.1 ho.symm).1 String.utf8EncodeChar_ne_nil
    | malformed hm _ => exact absurd (List.append_eq_nil_iff.1 ho.symm).1 hm.ne_nil
  | @character c rest text _ ih =>
    generalize ho : String.utf8EncodeChar c ++ rest = octets at h'
    cases h' with
    | nil => exact absurd (List.append_eq_nil_iff.1 ho).1 String.utf8EncodeChar_ne_nil
    | character d hd =>
      obtain ⟨rfl, rfl⟩ := encode_append_inj ho
      rw [ih hd]
    | malformed hm _ => exact absurd (ho ▸ List.prefix_append _ _) (hm.no_character c)
  | @malformed part rest text hm _ ih =>
    generalize ho : part ++ rest = octets at h'
    cases h' with
    | nil => exact absurd (List.append_eq_nil_iff.1 ho).1 hm.ne_nil
    | character d hd => exact absurd (ho ▸ List.prefix_append _ _) (hm.no_character d)
    | malformed hm' hd =>
      obtain ⟨rfl, rfl⟩ := hm.append_inj hm' ho
      rw [ih hd]

/-! ## The machine finds it -/

/-- Where no octet carries on what is held, nothing longer begins a character. -/
theorem IsHeld.not_begins_longer {held rest longer : List UInt8} (h : IsHeld held)
    (hr : ∀ octet more, rest = octet :: more → continues held octet = false)
    (hp : longer <+: held ++ rest) (hlt : held.length < longer.length) : ¬ Begins longer := by
  intro hb
  obtain ⟨more, rfl⟩ := List.prefix_of_prefix_length_le (List.prefix_append held rest) hp
    (Nat.le_of_lt hlt)
  -- A longer beginning would go on with the octet that does not carry on what is held.
  match more with
  | [] => simp at hlt
  | octet :: more =>
    obtain ⟨last, hl⟩ := hp
    have hrest : rest = octet :: (more ++ last) := by
      simpa [List.append_assoc] using hl.symm
    have hgrown : Begins (held ++ [octet]) := hb.of_prefix ⟨more, by simp⟩
    rw [begins_concat_iff h, hr _ _ hrest] at hgrown
    exact Bool.false_ne_true hgrown

/-- What is held when an octet comes that does not carry it on is a maximal malformed part. -/
theorem IsHeld.isMalformed {held rest : List UInt8} (h : IsHeld held)
    (hr : ∀ octet more, rest = octet :: more → continues held octet = false) :
    IsMalformed held rest where
  ne_nil := h.ne_nil
  begins_or_single := .inl h.begins
  longest _ hp hlt := h.not_begins_longer hr hp hlt
  no_character c hp := by
    rcases Nat.lt_or_ge held.length (String.utf8EncodeChar c).length with hlt | hle
    · exact h.not_begins_longer hr hp hlt ⟨c, List.prefix_rfl⟩
    · exact h.not_encode_prefix c
        (List.prefix_of_prefix_length_le hp (List.prefix_append held rest) hle)

/-- An octet that leads no sequence is a malformed part by itself. -/
theorem isMalformed_of_width_none {octet : UInt8} (h : width octet = none) (rest : List UInt8) :
    IsMalformed [octet] rest := by
  have hnot : ∀ tail, ¬ Begins (octet :: tail) := by
    intro tail hb
    obtain ⟨n, hw, -⟩ := begins_iff.1 hb
    simp [h] at hw
  refine ⟨by simp, ?_, .inr rfl, ?_⟩
  · rintro c ⟨last, hl⟩
    match hc : String.utf8EncodeChar c with
    | [] => exact String.utf8EncodeChar_ne_nil hc
    | lead :: tail =>
      rw [hc] at hl
      obtain ⟨rfl, -⟩ := List.cons.inj hl
      exact hnot tail ⟨c, [], by rw [List.append_nil, hc]⟩
  · rintro longer ⟨last, hl⟩ hlt hb
    match longer with
    | [] => simp at hlt
    | lead :: tail =>
      obtain ⟨rfl, -⟩ := List.cons.inj hl
      exact hnot tail hb

/-- What the machine may hold: nothing, or the beginning of a character. -/
def MayHold (held : List UInt8) : Prop := held = [] ∨ IsHeld held

/-- What is held when the input ends is one malformed part. -/
theorem lossy_flush {held : List UInt8} (h : MayHold held) : Lossy held (flush held) := by
  rcases h with rfl | h
  · exact .nil
  · have hm : IsMalformed held [] := h.isMalformed (by simp)
    have := Lossy.malformed hm .nil
    rw [List.append_nil] at this
    simpa [flush, h.ne_nil] using this

/-- An octet that comes while nothing is held. -/
theorem lossy_start (octet : UInt8) (rest : List UInt8) (text : List Char) :
    MayHold (start octet).2 ∧
      (Lossy ((start octet).2 ++ rest) text →
        Lossy (octet :: rest) ((start octet).1 ++ text)) := by
  unfold start
  split
  · next hw => exact ⟨.inl rfl, fun h => .malformed (isMalformed_of_width_none hw rest) h⟩
  · next hw =>
    refine ⟨.inl rfl, fun h => ?_⟩
    have hs : String.utf8EncodeChar (assemble [octet]) = [octet] := encode_assemble ⟨hw, trivial⟩
    have := Lossy.character (assemble [octet]) h
    rwa [hs] at this
  · next n hne hw =>
    refine ⟨.inr ⟨by simp, ?_, ?_⟩, fun h => h⟩
    · exact begins_iff.2 ⟨_, hw, (width_bounds hw).1, trivial⟩
    · simpa [isWhole, hw] using hne

/-- One step of the machine takes a decoding of what follows to one of what was there before. -/
theorem lossy_step {held : List UInt8} (h : MayHold held) (octet : UInt8) (rest : List UInt8)
    (text : List Char) :
    MayHold (step held octet).2 ∧
      (Lossy ((step held octet).2 ++ rest) text →
        Lossy (held ++ octet :: rest) ((step held octet).1 ++ text)) := by
  rcases h with rfl | h
  · simpa [step, continues] using lossy_start octet rest text
  have hne : held.isEmpty = false := by simpa using h.ne_nil
  by_cases hc : continues held octet = true
  · have hb : Begins (held ++ [octet]) := (begins_concat_iff h).2 hc
    by_cases hw : isWhole (held ++ [octet]) = true
    · -- The character is complete.
      simp only [step, hc, hw, if_true]
      refine ⟨.inl rfl, fun hrest => ?_⟩
      have := Lossy.character (assemble (held ++ [octet])) hrest
      rw [encode_assemble_of_whole hb hw, List.append_assoc] at this
      exact this
    · simp only [step, hc, hw, if_true]
      exact ⟨.inr ⟨by simp, hb, by simpa using hw⟩, fun hrest => by simpa using hrest⟩
  · -- What was held is malformed, and the octet is read on its own.
    simp only [step, hc, hne]
    obtain ⟨hhold, hstart⟩ := lossy_start octet rest text
    refine ⟨hhold, fun hrest => ?_⟩
    have hm : IsMalformed held (octet :: rest) := by
      refine h.isMalformed fun o more he => ?_
      obtain ⟨rfl, -⟩ := List.cons.inj he
      simpa using hc
    exact .malformed hm (hstart hrest)

/-- The machine may be stopped anywhere: what it gave so far and what it holds decode the octets
that it was fed. -/
theorem lossy_feed {held : List UInt8} (h : MayHold held) (octets : List UInt8) :
    MayHold (feed held octets).2 ∧ ∀ {rest text}, Lossy ((feed held octets).2 ++ rest) text →
      Lossy (held ++ octets ++ rest) ((feed held octets).1 ++ text) := by
  induction octets generalizing held with
  | nil => exact ⟨h, fun hrest => by simpa [feed] using hrest⟩
  | cons octet octets ih =>
    obtain ⟨hhold, hfeed⟩ := ih (lossy_step h octet [] []).1
    refine ⟨hhold, fun {rest text} hrest => ?_⟩
    -- The rest is read after the later octets first, then after this one.
    have hmore : Lossy ((step held octet).2 ++ (octets ++ rest))
        ((feed (step held octet).2 octets).1 ++ text) := by
      simpa [List.append_assoc] using hfeed hrest
    have := (lossy_step h octet _ _).2 hmore
    simpa [feed, List.append_assoc] using this

/-- The text of a whole input is its lossy decoding. -/
theorem lossy_iff {octets : List UInt8} {text : List Char} :
    Lossy octets text ↔ lossy octets = text := by
  have hl : Lossy octets (lossy octets) := by
    obtain ⟨hhold, hfeed⟩ := lossy_feed (.inl rfl) octets
    have hend : Lossy ((feed [] octets).2 ++ []) (flush (feed [] octets).2) := by
      simpa using lossy_flush hhold
    simpa [lossy] using hfeed hend
  constructor
  · exact fun h => hl.unique h
  · rintro rfl
    exact hl

/-- The octets of a text in front decode to that text. -/
theorem Lossy.encode_append {octets : List UInt8} {text : List Char} (h : Lossy octets text)
    (before : List Char) : Lossy (encode before ++ octets) (before ++ text) := by
  induction before with
  | nil => exact h
  | cons c before ih =>
    rw [encode_cons, List.append_assoc]
    exact .character c ih

/-- Decoding is exact on the octets of a text. -/
theorem lossy_encode (text : List Char) : lossy (encode text) = text :=
  lossy_iff.1 (by simpa using Lossy.nil.encode_append text)

end DaemonRpc.Utf8

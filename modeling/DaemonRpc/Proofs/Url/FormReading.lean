import DaemonRpc.Proofs.Utf8.Lossy
import DaemonRpc.Url.Basic

/-!
# Reading a form

What is form-encoded is read back as it was, whatever the keys and values
(`Url.Form.decode_encode`): every octet is written so that no separator occurs in it, and read back
as that octet. A form holds no character that a query has to encode once more, so the query of a URL
can be set to it as it is (`Url.query_withQuery_encode`).
-/

namespace DaemonRpc

/-- A string is read back from its octets. -/
theorem Utf8.toStringLossy_ofString (s : String) : toStringLossy (ofString s) = s := by
  rw [toStringLossy, ofString, lossy_encode, String.ofList_toList]

/-- What is checked for each ASCII character by its code holds of all of them. -/
theorem Text.forall_ascii {p : Char → Prop} (h : ∀ n < 128, p (Char.ofNat n)) :
    ∀ c : Char, c.toNat < 128 → p c := by
  intro c hc
  have hchar := h c.toNat hc
  rwa [Char.ofNat_toNat] at hchar

namespace Url.Form

/-! ## One octet -/

/-- What an octet is written as needs no encoding in a query. -/
theorem specialQuerySet_of_mem_encodeOctet {b : UInt8} {c : Char} (h : c ∈ encodeOctet b) :
    specialQuerySet c = false := by
  have hall : ∀ n < 256, (encodeOctet (UInt8.ofNat n)).all (!specialQuerySet ·) = true := by
    decide +kernel
  have hoctet := hall b.toNat b.toNat_lt
  rw [UInt8.ofNat_toNat] at hoctet
  simpa using List.all_eq_true.1 hoctet c h

/-- No separator occurs in what an octet is written as. -/
theorem separators_not_mem (b : UInt8) :
    0x26 ∉ Utf8.encode (encodeOctet b) ∧ 0x3D ∉ Utf8.encode (encodeOctet b) := by
  have hall : ∀ n < 256, 0x26 ∉ Utf8.encode (encodeOctet (UInt8.ofNat n)) ∧
      0x3D ∉ Utf8.encode (encodeOctet (UInt8.ofNat n)) := by
    decide +kernel
  simpa using hall b.toNat b.toNat_lt

/-- Only a percent sign is read together with what follows. -/
theorem percentDecode_cons {b : UInt8} (h : b ≠ 0x25) (rest : List UInt8) :
    percentDecode (b :: rest) = b :: percentDecode rest := by
  rw [percentDecode.eq_def]
  split
  · next heq => exact absurd (List.cons.inj heq).1 h
  · next heq =>
    obtain ⟨rfl, rfl⟩ := List.cons.inj heq
    rfl
  · next heq => cases heq

/-- The octets of a percent-encoded octet. -/
theorem encode_percentOctet (b : UInt8) :
    ∃ high low, Utf8.encode (percentOctet b) = [0x25, high, low] ∧
      plusToBlank high = high ∧ plusToBlank low = low ∧ hexOctet? high low = some b := by
  have hdigit : ∀ n < 16, ∃ octet, String.utf8EncodeChar (upperHexDigit n) = [octet] ∧
      plusToBlank octet = octet ∧ hexValue? (Char.ofNat octet.toNat) = some n := by
    intro n hn
    refine ⟨UInt8.ofNat (upperHexDigit n).toNat, ?_⟩
    revert n
    decide
  obtain ⟨high, hhigh, hhighPlus, hhighValue⟩ := hdigit (b.toNat / 16) (by
    have := b.toNat_lt
    omega)
  obtain ⟨low, hlow, hlowPlus, hlowValue⟩ := hdigit (b.toNat % 16) (by omega)
  refine ⟨high, low, ?_, hhighPlus, hlowPlus, ?_⟩
  · have hpercent : String.utf8EncodeChar '%' = [0x25] := by decide
    rw [percentOctet, Utf8.encode, List.flatMap_cons, List.flatMap_cons, List.flatMap_cons,
      hpercent, hhigh, hlow]
    rfl
  · rw [hexOctet?, hhighValue, hlowValue]
    have hsum : b.toNat / 16 * 16 + b.toNat % 16 = b.toNat := by omega
    simp [hsum]

/-- What an octet is written as is read back. -/
theorem percentDecode_encodeOctet (b : UInt8) (rest : List UInt8) :
    percentDecode ((Utf8.encode (encodeOctet b) ++ rest).map plusToBlank) =
      b :: percentDecode (rest.map plusToBlank) := by
  rw [encodeOctet, List.map_append]
  split
  · next hblank =>
    -- A blank is written as a plus sign.
    subst hblank
    have hplus : (Utf8.encode ['+']).map plusToBlank = [0x20] := by decide
    rw [hplus]
    exact percentDecode_cons (by decide) _
  · split
    · next hplain =>
      -- A plain octet stands for itself, and neither a plus nor a percent sign is plain.
      have hall : ∀ n < 256, isPlain (UInt8.ofNat n) = true →
          (Utf8.encode [Char.ofNat n]).map plusToBlank = [UInt8.ofNat n] ∧ n ≠ 0x25 := by
        decide +kernel
      obtain ⟨hself, hpercent⟩ := hall b.toNat b.toNat_lt (by simpa using hplain)
      rw [UInt8.ofNat_toNat] at hself
      rw [hself]
      refine percentDecode_cons ?_ _
      rintro rfl
      exact hpercent rfl
    · obtain ⟨high, low, hoctets, hhigh, hlow, hvalue⟩ := encode_percentOctet b
      have hpercent : plusToBlank 0x25 = 0x25 := by decide
      rw [hoctets, List.map_cons, List.map_cons, List.map_cons, hhigh, hlow, hpercent]
      simp [percentDecode, hvalue]

/-! ## Keys and values -/

theorem encodeText_octets (octets : List UInt8) :
    (0x26 ∉ Utf8.encode (octets.flatMap encodeOctet) ∧
        0x3D ∉ Utf8.encode (octets.flatMap encodeOctet)) ∧
      percentDecode ((Utf8.encode (octets.flatMap encodeOctet)).map plusToBlank) = octets := by
  induction octets with
  | nil => decide
  | cons b octets ih =>
    obtain ⟨⟨hamp, heq⟩, hread⟩ := ih
    have hb := separators_not_mem b
    rw [List.flatMap_cons, Utf8.encode_append, percentDecode_encodeOctet, hread]
    simp [hb, hamp, heq]

/-- A key or value is read back. -/
theorem decodeText_encodeText (s : String) : decodeText (Utf8.encode (encodeText s)) = s := by
  rw [decodeText, encodeText, (encodeText_octets _).2, Utf8.toStringLossy_ofString]

/-- The octets of a written pair. -/
theorem encode_encodePair (p : Pair) :
    Utf8.encode (encodePair p) =
      Utf8.encode (encodeText p.1) ++ 0x3D :: Utf8.encode (encodeText p.2) := by
  have hmark : String.utf8EncodeChar '=' = [0x3D] := by decide
  rw [encodePair, Utf8.encode_append, Utf8.encode_cons, hmark]
  rfl

/-- A pair is read back. -/
theorem decodePair_encodePair (p : Pair) : decodePair (Utf8.encode (encodePair p)) = p := by
  have hkey : ∀ b ∈ Utf8.encode (encodeText p.1), decide (b ≠ 0x3D) = true := by
    intro b hb
    refine decide_eq_true ?_
    rintro rfl
    exact (encodeText_octets _).1.2 hb
  rw [encode_encodePair, decodePair]
  simp only [List.takeWhile_append_of_pos hkey, List.dropWhile_append_of_pos hkey,
    List.takeWhile_cons, List.dropWhile_cons, ne_eq, not_true_eq_false, decide_false,
    Bool.false_eq_true, if_false, List.append_nil, List.drop_succ_cons, List.drop_zero,
    decodeText_encodeText]

/-! ## Forms -/

section Pieces

variable {α : Type} {isSeparator : α → Bool}

/-- There is a piece, if only an empty one. -/
theorem pieces_ne_nil (l : List α) : pieces isSeparator l ≠ [] := by
  cases l with
  | nil => simp [pieces]
  | cons a rest =>
    rw [pieces]
    split
    · simp
    · split <;> simp

theorem pieces_of_not_mem {piece : List α} (h : ∀ a ∈ piece, isSeparator a = false) :
    pieces isSeparator piece = [piece] := by
  induction piece with
  | nil => rfl
  | cons a piece ih =>
    obtain ⟨ha, hrest⟩ := List.forall_mem_cons.1 h
    rw [pieces, ih hrest]
    simp [ha]

theorem pieces_append {piece : List α} (h : ∀ a ∈ piece, isSeparator a = false) {separator : α}
    (hsep : isSeparator separator = true) (rest : List α) :
    pieces isSeparator (piece ++ separator :: rest) = piece :: pieces isSeparator rest := by
  induction piece with
  | nil =>
    rw [List.nil_append, pieces]
    split
    · next hnil => exact absurd hnil (pieces_ne_nil rest)
    · next first more hrest => rw [if_pos hsep, hrest]
  | cons a piece ih =>
    obtain ⟨ha, hpiece⟩ := List.forall_mem_cons.1 h
    rw [List.cons_append, pieces, ih hpiece]
    simp [ha]

end Pieces

/-- A form is read back pair by pair. -/
theorem decode_encode (pairs : List Pair) : decode (encode pairs) = pairs := by
  have hpair : ∀ p : Pair, ∀ b ∈ Utf8.encode (encodePair p), (b == 0x26) = false := by
    intro p b hb
    rw [beq_eq_false_iff_ne]
    rintro rfl
    rw [encode_encodePair] at hb
    rcases List.mem_append.1 hb with hb | hb
    · exact (encodeText_octets _).1.1 hb
    · rcases List.mem_cons.1 hb with hb | hb
      · cases hb
      · exact (encodeText_octets _).1.1 hb
  have hne : ∀ p : Pair, (Utf8.encode (encodePair p)).isEmpty = false := by
    intro p
    rw [encode_encodePair]
    simp
  fun_induction encode pairs with
  | case1 => rfl
  | case2 p => simp [decode, pieces_of_not_mem (hpair p), hne, decodePair_encodePair]
  | case3 p q rest ih =>
    have hmark : String.utf8EncodeChar '&' = [0x26] := by decide
    -- The first separator is the one behind the first pair, since no pair holds one.
    have hread : decode (encodePair p ++ '&' :: encode (q :: rest)) =
        p :: decode (encode (q :: rest)) := by
      rw [decode, Utf8.encode_append, Utf8.encode_cons, hmark, List.singleton_append,
        pieces_append (hpair p) rfl, decode]
      simp [hne, decodePair_encodePair]
    rw [hread, ih]

/-- A form holds no character that a query has to encode. -/
theorem specialQuerySet_of_mem_encode {pairs : List Pair} {c : Char} (h : c ∈ encode pairs) :
    specialQuerySet c = false := by
  have htext : ∀ s : String, ∀ c ∈ encodeText s, specialQuerySet c = false := by
    intro s c hc
    obtain ⟨b, -, hb⟩ := List.mem_flatMap.1 hc
    exact specialQuerySet_of_mem_encodeOctet hb
  have hpair : ∀ p : Pair, ∀ c ∈ encodePair p, specialQuerySet c = false := by
    intro p c hc
    rcases List.mem_append.1 hc with hc | hc
    · exact htext _ c hc
    · rcases List.mem_cons.1 hc with rfl | hc
      · decide
      · exact htext _ c hc
  fun_induction encode pairs with
  | case1 => cases h
  | case2 p => exact hpair p c h
  | case3 p q rest ih =>
    rcases List.mem_append.1 h with h | h
    · exact hpair p c h
    · rcases List.mem_cons.1 h with rfl | h
      · decide
      · exact ih h

end Url.Form

/-- A text without characters of the set is its own encoding. -/
theorem Url.percentEncode_of_forall {set : EncodeSet} {text : List Char}
    (h : ∀ c ∈ text, set c = false) : percentEncode set text = text := by
  induction text with
  | nil => rfl
  | cons c text ih =>
    obtain ⟨hc, htext⟩ := List.forall_mem_cons.1 h
    rw [percentEncode, List.flatMap_cons, hc]
    exact congrArg (c :: ·) (ih htext)

/-- The query of a URL is set to a form as it is. -/
theorem Url.query_withQuery_encode (u : Url) (pairs : List Form.Pair) :
    (u.withQuery (some (Form.encode pairs))).query = some (Form.encode pairs) := by
  have hspecial : ∀ c ∈ Form.encode pairs, specialQuerySet c = false :=
    fun c hc => Form.specialQuerySet_of_mem_encode hc
  refine congrArg some (percentEncode_of_forall fun c hc => ?_)
  have h := hspecial c hc
  split
  · exact h
  · exact (Bool.or_eq_false_iff.1 h).1

end DaemonRpc

import DaemonRpc.Proofs.Body.Line

/-!
# Framing a body that comes in chunks

The framer cuts a body into the lines of the whole body, wherever the chunks end. Between two
chunks its state is a function of the octets of the unfinished line alone (`Framer.within`); a
chunk takes it from one unfinished line to the next and gives the lines that end in between
(`push_within`). So any run of chunks gives the lines of their concatenation
(`pushAll_within`).
-/

namespace DaemonRpc.Framer

/-- Take chunks one after the other; returns all lines that end in them. -/
def pushAll (f : Framer) : List (List UInt8) → Framer × List String
  | [] => (f, [])
  | chunk :: chunks =>
    let (f, lines) := f.push chunk
    let (f, more) := f.pushAll chunks
    (f, lines ++ more)

/-- Frame whole bodies one after the other. -/
def finishAll (f : Framer) (bodies : List (List (List UInt8))) : Framer :=
  bodies.foldl (fun f chunks => (f.pushAll chunks).1.finish.1) f

/-- The framer after the octets of a line that is not finished. -/
def within (octets : List UInt8) : Framer where
  text := (Utf8.feed [] octets).1
  held := (Utf8.feed [] octets).2
  scanned := (Utf8.feed [] octets).1.length

/-! ## Line feeds in octets and in text -/

/-- Only the octet of a line feed decodes to one. -/
theorem newline_not_mem_of_lossy {octets : List UInt8} {text : List Char}
    (h : Utf8.Lossy octets text) (hfree : (0x0A : UInt8) ∉ octets) : '\n' ∉ text := by
  -- Along the places of the text: a line feed is one octet, and a replacement is none.
  induction h with
  | nil => simp
  | character c _ ih =>
    simp only [List.mem_append, not_or] at hfree
    simp only [List.mem_cons, not_or]
    refine ⟨?_, ih hfree.2⟩
    rintro rfl
    exact hfree.1 (by decide)
  | malformed _ _ ih =>
    simp only [List.mem_append, not_or] at hfree
    simp only [List.mem_cons, not_or]
    exact ⟨by decide, ih hfree.2⟩

/-- The text of octets without a line feed has none, also before the last character is complete. -/
theorem newline_not_mem_feed {octets : List UInt8} (hfree : (0x0A : UInt8) ∉ octets) :
    '\n' ∉ (Utf8.feed [] octets).1 := by
  have h := newline_not_mem_of_lossy (Utf8.lossy_iff.2 rfl) hfree
  simp only [Utf8.lossy, List.mem_append, not_or] at h
  exact h.1

/-- A line feed ends whatever character is not complete. -/
theorem feed_newline (held : List UInt8) :
    Utf8.feed held [0x0A] = (Utf8.flush held ++ ['\n'], []) := by
  -- A line feed is below all continuation octets.
  have hc : Utf8.continues held 0x0A = false := by
    match held with
    | [] => rfl
    | [lead] =>
      rw [Bool.eq_false_iff, ne_eq, Utf8.continues_lead_iff]
      simp
    | _ :: _ :: _ => rfl
  have hs : Utf8.start 0x0A = (['\n'], []) := by decide
  rcases held with _ | ⟨lead, tail⟩ <;> simp [Utf8.feed, Utf8.step, hc, hs, Utf8.flush]

/-- Decoding a finished line and what follows it. -/
theorem feed_line (line more : List UInt8) :
    Utf8.feed [] (line ++ 0x0A :: more) =
      (Utf8.lossy line ++ '\n' :: (Utf8.feed [] more).1, (Utf8.feed [] more).2) := by
  rw [← List.singleton_append, ← List.append_assoc, Utf8.feed_append, Utf8.feed_append,
    feed_newline]
  simp [Utf8.lossy]

/-- Cutting octets at line feeds and then decoding is decoding and then cutting. -/
theorem cutAt_feed (octets : List UInt8) :
    cutAt '\n' (Utf8.feed [] octets).1 =
        ((cutAt 0x0A octets).1.map Utf8.lossy, (Utf8.feed [] (cutAt 0x0A octets).2).1) ∧
      (Utf8.feed [] octets).2 = (Utf8.feed [] (cutAt 0x0A octets).2).2 := by
  rcases hcut : cutAt 0x0A octets with ⟨pieces, rest⟩
  obtain ⟨rfl, hp, hr⟩ := isCut_iff.2 hcut
  -- The cut is determined by its pieces from here on.
  clear hcut
  induction pieces with
  | nil => simp [cutAt_of_not_mem (newline_not_mem_feed hr)]
  | cons piece more ih =>
    obtain ⟨hpiece, hmore⟩ := List.forall_mem_cons.1 hp
    have hfree := newline_not_mem_of_lossy (Utf8.lossy_iff.2 rfl) hpiece
    obtain ⟨ihtext, ihheld⟩ := ih hmore
    rw [List.flatMap_cons, List.append_assoc, List.append_assoc, List.singleton_append, feed_line,
      cutAt_append_sep hfree, ihtext]
    exact ⟨rfl, ihheld⟩

/-! ## What `push` does to a text -/

theorem pieces_ne_nil (text : List Char) : pieces text ≠ [] := by
  cases text with
  | nil => simp [pieces]
  | cons c text =>
    rw [pieces]
    split
    · simp
    · split <;> simp

/-- The framer cuts at the last line feed only, and the pieces before it are lines. -/
theorem cutAt_of_splitLast {text : List Char} :
    cutAt '\n' text = match splitLast text with
      | none => ([], text)
      | some (before, after) => (pieces before, after) := by
  induction text with
  | nil => rfl
  | cons c text ih =>
    simp only [cutAt, ih, splitLast]
    rcases splitLast text with _ | ⟨before, after⟩
    · by_cases hc : c = '\n' <;> simp [hc, pieces]
    · obtain ⟨piece, more, hb⟩ := List.exists_cons_of_ne_nil (pieces_ne_nil before)
      by_cases hc : c = '\n' <;> simp [hc, pieces, hb]

/-- Text without a line feed in front moves into the part before the last one. -/
theorem splitLast_append {a : List Char} (h : '\n' ∉ a) (b : List Char) :
    splitLast (a ++ b) = (splitLast b).map fun (before, after) => (a ++ before, after) := by
  induction a with
  | nil => cases hb : splitLast b <;> simp [hb]
  | cons c a ih =>
    obtain ⟨hc, ha⟩ := List.ne_and_not_mem_of_not_mem_cons h
    rw [List.cons_append, splitLast, ih ha]
    cases splitLast b <;> simp [Ne.symm hc]

/-- A chunk takes the framer from one unfinished line to the next, and gives the lines that end in
between. -/
theorem push_within {octets : List UInt8} (hfree : (0x0A : UInt8) ∉ octets) (chunk : List UInt8) :
    (within octets).push chunk =
      (within (cutAt 0x0A (octets ++ chunk)).2, endedLines (octets ++ chunk)) := by
  -- `push` looks for line feeds only after what it scanned before, which has none.
  obtain ⟨htext, hheld⟩ := cutAt_feed (octets ++ chunk)
  have happ := Utf8.feed_append [] octets chunk
  have hsplit := splitLast_append (newline_not_mem_feed hfree)
    (Utf8.feed (Utf8.feed [] octets).2 chunk).1
  rw [cutAt_of_splitLast, happ, hsplit] at htext
  rw [happ] at hheld
  simp only at htext hheld
  simp only [push, within, List.drop_append_of_le_length, le_refl, List.drop_length,
    List.nil_append, List.take_append_of_le_length, List.take_length, endedLines]
  rcases hs : splitLast (Utf8.feed (Utf8.feed [] octets).2 chunk).1 with _ | ⟨before, after⟩ <;>
    simp only [hs, Option.map_none, Option.map_some, Prod.mk.injEq] at htext
  · -- No line ends in the chunk.
    have hnone : (cutAt 0x0A (octets ++ chunk)).1 = [] := by
      simpa using htext.1.symm
    rw [← htext.2, ← hheld, hnone]
    rfl
  · have hlines : (pieces ((Utf8.feed [] octets).1 ++ before)).filterMap line? =
        (cutAt 0x0A (octets ++ chunk)).1.filterMap lineOf := by
      rw [htext.1, List.filterMap_map]
      rfl
    rw [← htext.2, ← hheld, ← hlines]
    rfl

/-- Any run of chunks takes the framer from one unfinished line to the next, and gives the lines
that end in between. -/
theorem pushAll_within {octets : List UInt8} (hfree : (0x0A : UInt8) ∉ octets)
    (chunks : List (List UInt8)) :
    (within octets).pushAll chunks =
      (within (cutAt 0x0A (octets ++ chunks.flatten)).2,
        endedLines (octets ++ chunks.flatten)) := by
  induction chunks generalizing octets with
  | nil => simp [pushAll, endedLines, cutAt_of_not_mem hfree]
  | cons chunk chunks ih =>
    -- What is left after a chunk has no line feed, so the invariant holds for the next one.
    have hrest := (isCut_cutAt 0x0A (octets ++ chunk)).rest_free
    simp only [pushAll, push_within hfree, ih hrest, List.flatten_cons, endedLines]
    rw [← List.append_assoc, cutAt_append 0x0A (octets ++ chunk), List.filterMap_append]

/-- The end of the body gives the unfinished line, and the framer begins anew. -/
theorem finish_within (octets : List UInt8) : (within octets).finish = ({}, lineOf octets) := rfl

/-- A framer that framed whole bodies is as new. -/
theorem finishAll_empty (bodies : List (List (List UInt8))) : finishAll {} bodies = {} := by
  induction bodies with
  | nil => rfl
  | cons chunks bodies ih =>
    have hfinish : (pushAll {} chunks).1.finish.1 = {} := rfl
    rw [finishAll, List.foldl_cons, hfinish]
    exact ih

/-! ## Any chunking gives the lines of the whole body -/

/-- After any whole bodies, the lines that a run of chunks has given so far and the line that ends
the body are those of the concatenated octets, read at once; the framer is then as new. Where the
chunks are cut makes no difference. -/
theorem pushAll_framed (bodies : List (List (List UInt8))) (chunks : List (List UInt8))
    (lines : List String) (last : Option String) :
    (Framed chunks.flatten lines last ↔
      ((finishAll {} bodies).pushAll chunks).2 = lines ∧
        ((finishAll {} bodies).pushAll chunks).1.finish = ({}, last)) ∧
      (finishAll {} bodies).pushAll chunks = Framer.push {} chunks.flatten := by
  have hpush := pushAll_within (List.not_mem_nil : (0x0A : UInt8) ∉ [])
  have hone := push_within (List.not_mem_nil : (0x0A : UInt8) ∉ []) chunks.flatten
  have hnew : within [] = {} := rfl
  rw [hnew] at hpush hone
  rw [finishAll_empty, hpush, hone, framed_iff, finish_within]
  simp [lastLine]

/-- A character may be cut anywhere, also where it is never completed. -/
example : (pushAll {} [[0x61, 0xE2], [0x82], [0x0A, 0x62], [], [0x0A, 0xF0, 0x9F]]).2 =
    ["a\uFFFD", "b"] := by decide

end DaemonRpc.Framer

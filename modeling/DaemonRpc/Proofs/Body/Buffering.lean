import DaemonRpc.Body.LineBuffer
import DaemonRpc.Proofs.Body.Framing
import DaemonRpc.Proofs.Utf8.Validation
import Mathlib.Data.List.Chain

/-!
# What a line buffer holds

A line buffer stores what a framer is about (`Framer.stored`), and each use of it does what the same
use of the framer does (`push_stored`): its offsets stand between characters, and its decoding loop
does what the octet machine does (`feed_rounds`).

* `sound_useAll`: after any uses the buffer holds the text of the unfinished line, without a line
  feed and searched to its end, and at most three octets that begin a character; every octet of the
  bodies is in one place only (`Sound`).
* `forward_rounds`: the decoding loop goes forward in every round but the last (`Forward`).
-/

namespace DaemonRpc

/-! ## Offsets in octets -/

@[simp] theorem octetLength_nil : octetLength [] = 0 := rfl

@[simp] theorem octetLength_append (a b : List Char) :
    octetLength (a ++ b) = octetLength a + octetLength b := by
  simp [octetLength, Utf8.encode_append]

@[simp] theorem octetLength_cons (c : Char) (text : List Char) :
    octetLength (c :: text) = (String.utf8EncodeChar c).length + octetLength text := by
  simp [octetLength, Utf8.encode_cons]

/-- The offset where a part of a text ends stands between two characters. -/
theorem splitOctets_octetLength (a b : List Char) :
    splitOctets (octetLength a) (a ++ b) = some (a, b) := by
  induction a with
  | nil => cases b <;> simp [splitOctets]
  | cons c a ih =>
    have hpos := List.length_pos_iff.2 (String.utf8EncodeChar_ne_nil (c := c))
    have hne : (String.utf8EncodeChar c).length + octetLength a ≠ 0 := by omega
    simp only [octetLength_cons, List.cons_append, splitOctets, hne, if_false, Nat.le_add_right,
      if_true, Nat.add_sub_cancel_left, ih, Option.map_some]

/-! ## Lines of a text that ends with a line feed -/

namespace Framer

/-- The last line feed stands between the two parts. -/
theorem eq_of_splitLast {text before after : List Char}
    (h : splitLast text = some (before, after)) : text = before ++ '\n' :: after := by
  induction text generalizing before with
  | nil => simp [splitLast] at h
  | cons c text ih =>
    rw [splitLast] at h
    split at h
    · next b a hb =>
      obtain ⟨rfl, rfl⟩ := Prod.mk.inj (Option.some.inj h)
      rw [ih hb]
      rfl
    · split at h
      · next hc =>
        obtain ⟨rfl, rfl⟩ := Prod.mk.inj (Option.some.inj h)
        rw [hc]
        rfl
      · simp at h

theorem pieces_concat_newline (text : List Char) :
    pieces (text ++ ['\n']) = pieces text ++ [[]] := by
  induction text with
  | nil => simp [pieces]
  | cons c text ih =>
    obtain ⟨piece, more, hp⟩ := List.exists_cons_of_ne_nil (pieces_ne_nil text)
    rw [List.cons_append, pieces, pieces, ih, hp]
    by_cases hc : c = '\n' <;> simp [hc]

/-- The line feed at the end begins no line. -/
theorem linesOf_concat_newline (text : List Char) : linesOf (text ++ ['\n']) = linesOf text := by
  have hnone : line? [] = none := rfl
  simp [linesOf, pieces_concat_newline, hnone]

end Framer

namespace LineBuffer

/-! ## The decoding loop -/

/-- What a round does, by what it finds in the octets that are left. -/
theorem round_cases (octets : List UInt8) (start : Nat) :
    (∃ text, octets.drop start = Utf8.encode text ∧
        round octets start = ⟨start, text, octets.length, false⟩) ∨
      (∃ text part rest, octets.drop start = Utf8.encode text ++ (part ++ rest) ∧
        Utf8.IsMalformed part rest ∧ ¬ Utf8.Begins (part ++ rest) ∧
        round octets start = ⟨start, text ++ [Utf8.replacement],
          start + (Utf8.encode text).length + part.length, false⟩) ∨
      ∃ text held, octets.drop start = Utf8.encode text ++ held ∧ Utf8.IsHeld held ∧
        round octets start = ⟨start, text, start + (Utf8.encode text).length, true⟩ := by
  obtain ⟨finding, hcheck⟩ : ∃ finding, Utf8.check (octets.drop start) = finding := ⟨_, rfl⟩
  have hfound := Utf8.check_iff.1 hcheck
  simp only [round, hcheck]
  generalize octets.drop start = left at hfound
  cases hfound with
  | wellFormed text => exact .inl ⟨text, rfl, by simp [Utf8.lossy_encode]⟩
  | malformed text hm hb =>
    exact .inr (.inl ⟨text, _, _, rfl, hm, hb, by simp [Utf8.lossy_encode]⟩)
  | incomplete text hheld =>
    exact .inr (.inr ⟨text, _, rfl, hheld, by simp [Utf8.lossy_encode]⟩)

/-- A round does what the octet machine does up to where it ends; then the loop stops with what the
machine holds, or the machine goes on from there. -/
theorem feed_round (octets : List UInt8) (start : Nat) :
    Utf8.feed [] (octets.drop start) =
      let r := round octets start
      if r.stops = true then (r.text, octets.drop r.next)
      else (r.text ++ (Utf8.feed [] (octets.drop r.next)).1,
        (Utf8.feed [] (octets.drop r.next)).2) := by
  have hdrop : ∀ n, octets.drop (start + n) = (octets.drop start).drop n := by simp
  rcases round_cases octets start with ⟨text, hleft, hr⟩ | ⟨text, part, rest, hleft, hm, hb, hr⟩ |
    ⟨text, held, hleft, hheld, hr⟩
  · have hfeed := Utf8.feed_encode_append text []
    rw [List.append_nil] at hfeed
    simp [hr, hleft, hfeed, Utf8.feed]
  · simp [hr, hdrop, hleft, Utf8.feed_encode_append, Utf8.feed_malformed hm hb, Nat.add_assoc]
  · simp [hr, hdrop, hleft, Utf8.feed_encode_append, Utf8.feed_of_isHeld hheld]

/-- A round begins where it is to begin, and ends within the octets. -/
theorem round_bounds {octets : List UInt8} {start : Nat} (h : start < octets.length) :
    (round octets start).start = start ∧ start ≤ (round octets start).next ∧
      (round octets start).next ≤ octets.length := by
  have hlen : (octets.drop start).length = octets.length - start := List.length_drop
  rcases round_cases octets start with ⟨text, -, hr⟩ | ⟨text, part, rest, hleft, -, -, hr⟩ |
    ⟨text, held, hleft, -, hr⟩
  · rw [hr]
    exact ⟨rfl, Nat.le_of_lt h, Nat.le_refl _⟩
  · rw [hleft, List.length_append, List.length_append] at hlen
    simp only [hr, true_and]
    omega
  · rw [hleft, List.length_append] at hlen
    simp only [hr, true_and]
    omega

@[simp] theorem reached_cons (start : Nat) (r : Round) (more : List Round) :
    reached start (r :: more) = reached r.next more := by
  simp only [reached, List.getLast?_cons, Option.map_some, Option.getD_some]
  cases more.getLast? <;> rfl

/-- The loop does what the octet machine does, and leaves what the machine holds. -/
theorem feed_rounds (octets : List UInt8) (start : Nat) :
    Utf8.feed [] (octets.drop start) =
      ((rounds octets start).flatMap (·.text),
        octets.drop (reached start (rounds octets start))) := by
  fun_induction rounds octets start with
  | case1 start h r hs =>
    rw [feed_round]
    simp [r, hs, reached]
  | case2 start h r hs _ ih =>
    rw [feed_round]
    simp [r, hs, ih]
  | case3 start h =>
    simp [reached, Utf8.feed, List.drop_of_length_le (Nat.le_of_not_lt h)]

/-- Rounds go forward through the octets from `start` on: each begins where the one before it ended,
all but the last read something, and the last one stops the loop or has read everything. -/
structure Forward (octets : List UInt8) (start : Nat) (done : List Round) : Prop where
  begins : ∀ r ∈ done.head?, r.start = start
  joined : done.IsChain fun r r' => r'.start = r.next
  forward : ∀ r ∈ done.dropLast, r.start < r.next
  within : ∀ r ∈ done, r.start ≤ r.next ∧ r.next ≤ octets.length
  ends : ∀ r ∈ done.getLast?, r.stops = true ∨ r.next = octets.length
  short : done.length ≤ octets.length - start

/-- There is no round only if nothing is left. -/
theorem le_of_rounds_eq_nil {octets : List UInt8} {start : Nat} (h : rounds octets start = []) :
    octets.length ≤ start := by
  unfold rounds at h
  split at h
  · simp only at h
    split at h <;> simp at h
  · next hlt => exact Nat.le_of_not_lt hlt

/-- The loop goes forward, whatever the octets are. -/
theorem forward_rounds (octets : List UInt8) (start : Nat) :
    Forward octets start (rounds octets start) := by
  fun_induction rounds octets start with
  | case1 start h r hs =>
    obtain ⟨hstart, hle, hnext⟩ := round_bounds h
    refine ⟨by simpa using hstart, .singleton _, by simp, ?_, by simpa using .inl hs, ?_⟩
    · simpa using ⟨hstart.trans_le hle, hnext⟩
    · simp only [List.length_singleton]
      omega
  | case2 start h r hs hgoes ih =>
    have hlt : start < r.next := hgoes
    obtain ⟨hstart, hle, hnext⟩ : r.start = start ∧ start ≤ r.next ∧ r.next ≤ octets.length :=
      round_bounds h
    refine ⟨by simpa using hstart, List.isChain_cons.2 ⟨ih.begins, ih.joined⟩, ?_,
      List.forall_mem_cons.2 ⟨⟨hstart.trans_le hle, hnext⟩, ih.within⟩, ?_, ?_⟩
    · -- If no round comes after it, this one is the last.
      rcases hrest : rounds octets r.next with _ | ⟨next, more⟩
      · simp
      · rw [List.dropLast_cons_cons, ← hrest]
        exact List.forall_mem_cons.2 ⟨hstart.trans_lt hlt, ih.forward⟩
    · rcases hrest : rounds octets r.next with _ | ⟨next, more⟩
      · have := le_of_rounds_eq_nil hrest
        simpa using .inr (Nat.le_antisymm hnext this)
      · rw [List.getLast?_cons_cons, ← hrest]
        exact ih.ends
    · have := ih.short
      rw [List.length_cons]
      omega
  | case3 start h => exact ⟨by simp, .nil, by simp, by simp, by simp, by simp⟩

/-- What can be mended is left for the next chunk, what cannot is one replacement. -/
example : rounds [0x61, 0xE2, 0x82, 0xFF, 0x62, 0xF0, 0x9F] 0 =
    [⟨0, ['a', '\uFFFD'], 3, false⟩, ⟨3, ['\uFFFD'], 4, false⟩, ⟨4, ['b'], 5, true⟩] := by
  cbv

end LineBuffer

/-! ## A line buffer as the store of a framer -/

namespace Framer

/-- The line buffer that stores a framer. -/
def stored (f : Framer) : LineBuffer := ⟨f.text, f.held, octetLength f.text⟩

/-- The framer is between two chunks: its text is searched to the end, and it holds nothing or the
beginning of a character. -/
structure Between (f : Framer) : Prop where
  scanned : f.scanned = f.text.length
  held : Utf8.MayHold f.held

theorem between_within (octets : List UInt8) : (within octets).Between :=
  ⟨rfl, (Utf8.lossy_feed (.inl rfl) octets).1⟩

theorem decode_stored {f : Framer} (h : f.Between) (chunk : List UInt8) :
    f.stored.decode chunk =
      ⟨f.text ++ (Utf8.feed f.held chunk).1, (Utf8.feed f.held chunk).2, octetLength f.text⟩ := by
  have hloop := LineBuffer.feed_rounds (f.held ++ chunk) 0
  rw [List.drop_zero, Utf8.feed_append, Utf8.feed_of_mayHold h.held] at hloop
  obtain ⟨htext, hheld⟩ := Prod.mk.inj hloop
  rw [LineBuffer.decode, stored, ← htext, ← hheld]
  rfl

/-- A chunk does to the store what it does to the framer, and all offsets stand between
characters. -/
theorem push_stored {f : Framer} (h : f.Between) (chunk : List UInt8) :
    f.stored.push chunk = some ((f.push chunk).1.stored, (f.push chunk).2) := by
  have hdrop : ∀ decoded, (f.text ++ decoded).drop f.scanned = decoded := by
    simp [h.scanned]
  have htake : ∀ decoded, (f.text ++ decoded).take f.scanned = f.text := by
    simp [h.scanned]
  have hscanned : f.stored.scanned = octetLength f.text := rfl
  simp only [LineBuffer.push, push, decode_stored h, hscanned, splitOctets_octetLength, hdrop,
    htake, Option.bind_eq_bind, Option.bind_some]
  rcases hsplit : splitLast (Utf8.feed f.held chunk).1 with _ | ⟨before, after⟩
  · rfl
  · -- The text is cut behind its last line feed.
    have htext : f.text ++ (Utf8.feed f.held chunk).1 =
        ((f.text ++ before) ++ ['\n']) ++ after := by
      rw [eq_of_splitLast hsplit]
      simp
    have hoffset : octetLength f.text + octetLength before + 1 =
        octetLength ((f.text ++ before) ++ ['\n']) := by
      rw [octetLength_append, octetLength_append]
      rfl
    simp only [htext, hoffset, splitOctets_octetLength, Option.bind_some,
      linesOf_concat_newline]
    rfl

/-- A chunk leaves the framer between two chunks. -/
theorem Between.push {f : Framer} (h : f.Between) (chunk : List UInt8) :
    (f.push chunk).1.Between := by
  have hheld := (Utf8.lossy_feed h.held chunk).1
  simp only [Framer.push]
  split
  · exact ⟨rfl, hheld⟩
  · exact ⟨rfl, hheld⟩

/-! ## Runs -/

/-- What a framer is given. -/
inductive Input where
  | chunk (octets : List UInt8)
  /-- The body ends. -/
  | ending
  deriving DecidableEq, Repr

/-- Take one input; returns the lines that end with it. -/
def step (f : Framer) : Input → Framer × List String
  | .chunk octets => f.push octets
  | .ending => (f.finish.1, f.finish.2.toList)

/-- Take inputs one after the other; returns all lines. -/
def run (f : Framer) : List Input → Framer × List String
  | [] => (f, [])
  | input :: inputs =>
    let (g, lines) := f.step input
    let (last, more) := g.run inputs
    (last, lines ++ more)

/-- The octets of the bodies that the inputs finish, and of the one that they do not finish, where
the first of these bodies has begun with `octets`. -/
def bodies (octets : List UInt8) : List Input → List (List UInt8) × List UInt8
  | [] => ([], octets)
  | .chunk more :: inputs => bodies (octets ++ more) inputs
  | .ending :: inputs =>
    let (finished, last) := bodies [] inputs
    (octets :: finished, last)

/-- An input leaves the framer between two chunks. -/
theorem Between.step {f : Framer} (h : f.Between) (input : Input) : (f.step input).1.Between := by
  cases input with
  | chunk octets => exact h.push octets
  | ending => exact between_within []

/-- The lines are all lines of the body. -/
def Shows (body : List UInt8) (lines : List String) : Prop :=
  ∃ ended last, Framed body ended last ∧ lines = ended ++ last.toList

/-- All lines of a body. -/
def allLines (octets : List UInt8) : List String := endedLines octets ++ (lastLine octets).toList

theorem shows_allLines (octets : List UInt8) : Shows octets (allLines octets) :=
  ⟨_, _, framed_iff.2 ⟨rfl, rfl⟩, rfl⟩

theorem within_nil : within [] = {} := rfl

theorem endedLines_nil : endedLines [] = [] := rfl

theorem endedLines_append (a b : List UInt8) :
    endedLines (a ++ b) = endedLines a ++ endedLines ((cutAt 0x0A a).2 ++ b) := by
  rw [endedLines, cutAt_append, List.filterMap_append]
  rfl

/-- Any inputs take the framer to the unfinished line of the last body, and give the lines of all
bodies up to it. -/
theorem run_within (octets : List UInt8) (inputs : List Input) :
    ((within (cutAt 0x0A octets).2).run inputs).1 =
        within (cutAt 0x0A (bodies octets inputs).2).2 ∧
      endedLines octets ++ ((within (cutAt 0x0A octets).2).run inputs).2 =
        (bodies octets inputs).1.flatMap allLines ++ endedLines (bodies octets inputs).2 := by
  induction inputs generalizing octets with
  | nil => simp [run, bodies]
  | cons input inputs ih =>
    cases input with
    | chunk more =>
      have hfree := (isCut_cutAt 0x0A octets).rest_free
      obtain ⟨hstate, hlines⟩ := ih (octets ++ more)
      have hcut : (cutAt 0x0A ((cutAt 0x0A octets).2 ++ more)).2 =
          (cutAt 0x0A (octets ++ more)).2 := by rw [cutAt_append 0x0A octets]
      simp only [run, step, push_within hfree, bodies, hcut, hstate, true_and]
      rw [← hlines, endedLines_append octets more, List.append_assoc]
    | ending =>
      -- The framer begins anew, as with a body that has no octets yet.
      obtain ⟨hstate, hlines⟩ := ih []
      simp only [cutAt, within_nil, endedLines_nil, List.nil_append] at hstate hlines
      simp only [run, step, finish_within, bodies, hstate, hlines, true_and]
      simp [allLines, lastLine]

/-- Each octet of a body is in a line that has ended, in the text, or held. -/
theorem exists_places (octets : List UInt8) :
    ∃ ended unfinished, octets = ended ++ unfinished ++ (within (cutAt 0x0A octets).2).held ∧
      (ended = [] ∨ [0x0A] <:+ ended) ∧ Framed ended (endedLines octets) none ∧
      Utf8.Lossy unfinished (within (cutAt 0x0A octets).2).text := by
  obtain ⟨joined, hfree, -⟩ := isCut_cutAt 0x0A octets
  obtain ⟨unfinished, hrest, hlossy⟩ := Utf8.exists_lossy_of_feed (cutAt 0x0A octets).2
  refine ⟨(cutAt 0x0A octets).1.flatMap (· ++ [0x0A]), unfinished, ?_, ?_, ?_, hlossy⟩
  · rw [List.append_assoc]
    exact joined.trans (congrArg _ hrest)
  · rcases List.eq_nil_or_concat (cutAt 0x0A octets).1 with hp | ⟨pieces, piece, hp⟩
    · exact .inl (by simp [hp])
    · exact .inr (by simp [hp, ← List.append_assoc])
  · -- The lines that have ended are cut in the same way where nothing comes after them.
    have hcut : IsCut 0x0A ((cutAt 0x0A octets).1.flatMap (· ++ [0x0A]))
        (cutAt 0x0A octets).1 [] := ⟨by simp, hfree, List.not_mem_nil⟩
    rw [framed_iff, endedLines, lastLine, isCut_iff.1 hcut]
    exact ⟨rfl, rfl⟩

end Framer

namespace LineBuffer

/-- Take one input, as a framer does. -/
def step (b : LineBuffer) : Framer.Input → Option (LineBuffer × List String)
  | .chunk octets => b.push octets
  | .ending => some (b.finish.1, b.finish.2.toList)

/-- Take inputs one after the other; returns all lines. -/
def run (b : LineBuffer) : List Framer.Input → Option (LineBuffer × List String)
  | [] => some (b, [])
  | input :: inputs => do
    let (c, lines) ← b.step input
    let (last, more) ← c.run inputs
    some (last, lines ++ more)

/-- An input does to the store what it does to the framer. -/
theorem step_stored {f : Framer} (h : f.Between) (input : Framer.Input) :
    f.stored.step input = some ((f.step input).1.stored, (f.step input).2) := by
  cases input with
  | chunk octets => exact Framer.push_stored h octets
  | ending => rfl

/-- Any inputs do to the store what they do to the framer. -/
theorem run_stored {f : Framer} (h : f.Between) (inputs : List Framer.Input) :
    f.stored.run inputs = some ((f.run inputs).1.stored, (f.run inputs).2) := by
  induction inputs generalizing f with
  | nil => rfl
  | cons input inputs ih =>
    simp only [run, Framer.run, step_stored h, ih (h.step input), Option.bind_eq_bind,
      Option.bind_some]

/-- What a line buffer holds after inputs, and the lines that it has given. -/
structure Sound (inputs : List Framer.Input) (b : LineBuffer) (lines : List String) : Prop where
  /-- The text is of one line. -/
  newline_free : '\n' ∉ b.text
  /-- The text is searched to its end. -/
  scanned : b.scanned = octetLength b.text
  pending_short : b.pending.length ≤ 3
  /-- What is pending is less than the octets of a character. -/
  pending_begins : b.pending = [] ∨
    ∃ c, b.pending <+: String.utf8EncodeChar c ∧ b.pending ≠ String.utf8EncodeChar c
  /-- Each octet that came is in a body whose lines were all given, in a line that was given, in
  the text, or pending. -/
  octets_once : ∃ told ended returned unfinished,
    List.Forall₂ Framer.Shows (Framer.bodies [] inputs).1 told ∧
      (Framer.bodies [] inputs).2 = ended ++ unfinished ++ b.pending ∧
      (ended = [] ∨ [0x0A] <:+ ended) ∧ Framed ended returned none ∧
      Utf8.Lossy unfinished b.text ∧ lines = told.flatten ++ returned

/-- The store of a framer is sound in the unfinished line of the last body if the lines of the
bodies before were given, and those that have ended in this one. -/
theorem sound_within {inputs : List Framer.Input} {lines : List String}
    (h : lines = (Framer.bodies [] inputs).1.flatMap Framer.allLines ++
      Framer.endedLines (Framer.bodies [] inputs).2) :
    Sound inputs (Framer.within (cutAt 0x0A (Framer.bodies [] inputs).2).2).stored lines := by
  have hfree := (isCut_cutAt 0x0A (Framer.bodies [] inputs).2).rest_free
  have hheld := (Framer.between_within (cutAt 0x0A (Framer.bodies [] inputs).2).2).held
  obtain ⟨ended, unfinished, hplaces, hended, hframed, hlossy⟩ :=
    Framer.exists_places (Framer.bodies [] inputs).2
  refine ⟨Framer.newline_not_mem_feed hfree, rfl, ?_, ?_, _, ended, _, unfinished, ?_, hplaces,
    hended, hframed, hlossy, h.trans (congrArg (· ++ _) List.flatMap_def)⟩
  · rcases hheld with hnil | hheld
    · exact (congrArg List.length hnil).trans_le (Nat.zero_le 3)
    · exact hheld.length_le
  · exact hheld.imp_right Utf8.IsHeld.exists_char
  · rw [List.forall₂_map_right_iff]
    exact List.forall₂_same.2 fun body _ => Framer.shows_allLines body

/-- After any inputs the buffer is sound and stores what the framer has; the next chunk is searched
from between two characters, and decoded in rounds that go forward. -/
theorem sound_run (inputs : List Framer.Input) :
    ∃ b lines, run {} inputs = some (b, lines) ∧
      Framer.run {} inputs = (⟨b.text, b.pending, b.text.length⟩, lines) ∧
      Sound inputs b lines ∧
      ∀ chunk, (∃ fresh, splitOctets b.scanned (b.decode chunk).text = some (b.text, fresh)) ∧
        Forward (b.pending ++ chunk) 0 (rounds (b.pending ++ chunk) 0) := by
  have hstored := run_stored (Framer.between_within []) inputs
  obtain ⟨hstate, hlines⟩ := Framer.run_within [] inputs
  simp only [cutAt, Framer.within_nil, Framer.endedLines_nil, List.nil_append] at hstate hlines
  rw [Framer.within_nil, hstate] at hstored
  refine ⟨_, _, hstored, ?_, sound_within hlines, fun chunk => ⟨?_, forward_rounds _ _⟩⟩
  · exact Prod.ext hstate rfl
  · rw [Framer.decode_stored (Framer.between_within _)]
    exact ⟨_, splitOctets_octetLength _ _⟩

end LineBuffer

end DaemonRpc

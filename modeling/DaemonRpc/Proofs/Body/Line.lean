import DaemonRpc.Body.Framer
import DaemonRpc.Proofs.Utf8.Lossy
import Mathlib.Data.List.TakeWhile
import Mathlib.Data.List.Forall2
import Mathlib.Tactic.Set

/-!
# The lines of a whole body

What the lines of a body are, said of all its octets at once and without the framer: the octets are
cut at line feeds, each piece is decoded with replacements, and blanks around the text do not
count. `Framed octets lines last` relates a body to the lines that end with a line feed and to the
line that does not. The reading is total and unique: `framed_iff` computes it.
-/

namespace DaemonRpc

/-! ## Cutting at a separator -/

section Cut

variable {α : Type}

/-- A list is cut at every `sep` into the pieces that end with one and the rest. -/
structure IsCut (sep : α) (whole : List α) (pieces : List (List α)) (rest : List α) : Prop where
  joined : whole = pieces.flatMap (· ++ [sep]) ++ rest
  pieces_free : ∀ piece ∈ pieces, sep ∉ piece
  rest_free : sep ∉ rest

variable [DecidableEq α]

/-- The pieces of a list that end with `sep`, and the rest. -/
def cutAt (sep : α) : List α → List (List α) × List α
  | [] => ([], [])
  | a :: l =>
    let (pieces, rest) := cutAt sep l
    if a = sep then ([] :: pieces, rest)
    else
      match pieces with
      | [] => ([], a :: rest)
      | piece :: more => ((a :: piece) :: more, rest)

theorem cutAt_of_not_mem {sep : α} {l : List α} (h : sep ∉ l) : cutAt sep l = ([], l) := by
  induction l with
  | nil => rfl
  | cons a l ih =>
    obtain ⟨ha, hl⟩ := List.ne_and_not_mem_of_not_mem_cons h
    simp [cutAt, ih hl, Ne.symm ha]

/-- What stands before the first separator joins the first piece. -/
theorem cutAt_append_of_not_mem {sep : α} {a : List α} (h : sep ∉ a) (b : List α) :
    cutAt sep (a ++ b) =
      match cutAt sep b with
      | ([], rest) => ([], a ++ rest)
      | (piece :: more, rest) => ((a ++ piece) :: more, rest) := by
  induction a with
  | nil => rcases hb : cutAt sep b with ⟨_ | _, _⟩ <;> simp [hb]
  | cons x a ih =>
    obtain ⟨hx, ha⟩ := List.ne_and_not_mem_of_not_mem_cons h
    have hne : x ≠ sep := Ne.symm hx
    rcases hb : cutAt sep b with ⟨_ | _, _⟩ <;> simp [cutAt, ih ha, hb, hne]

theorem cutAt_append_sep {sep : α} {piece : List α} (h : sep ∉ piece) (l : List α) :
    cutAt sep (piece ++ sep :: l) = (piece :: (cutAt sep l).1, (cutAt sep l).2) := by
  rw [cutAt_append_of_not_mem h]
  simp [cutAt]

/-- The pieces and the rest are found by `cutAt`, and nothing else is a cut. -/
theorem isCut_iff {sep : α} {l rest : List α} {pieces : List (List α)} :
    IsCut sep l pieces rest ↔ cutAt sep l = (pieces, rest) := by
  constructor
  · rintro ⟨rfl, hp, hr⟩
    induction pieces with
    | nil => simpa using cutAt_of_not_mem hr
    | cons piece more ih =>
      obtain ⟨hpiece, hmore⟩ := List.forall_mem_cons.1 hp
      rw [List.flatMap_cons, List.append_assoc, List.append_assoc, List.singleton_append,
        cutAt_append_sep hpiece, ih hmore]
  · intro h
    induction l generalizing pieces rest with
    | nil =>
      obtain ⟨rfl, rfl⟩ := Prod.mk.inj h
      exact ⟨rfl, by simp, by simp⟩
    | cons a l ih =>
      obtain ⟨joined, hp, hr⟩ : IsCut sep l (cutAt sep l).1 (cutAt sep l).2 := ih rfl
      by_cases ha : a = sep
      · simp only [cutAt, ha, if_true, Prod.mk.injEq] at h
        obtain ⟨rfl, rfl⟩ := h
        refine ⟨?_, List.forall_mem_cons.2 ⟨by simp, hp⟩, hr⟩
        rw [List.flatMap_cons, ha, List.nil_append, List.append_assoc, ← joined]
        rfl
      · simp only [cutAt, ha, if_false] at h
        rcases hcut : (cutAt sep l).1 with _ | ⟨piece, more⟩ <;>
          simp only [hcut, Prod.mk.injEq] at h joined hp
        · obtain ⟨rfl, rfl⟩ := h
          refine ⟨by simpa using joined, by simp, ?_⟩
          simpa [Ne.symm ha] using hr
        · obtain ⟨rfl, rfl⟩ := h
          obtain ⟨hpiece, hmore⟩ := List.forall_mem_cons.1 hp
          refine ⟨by simpa using joined, List.forall_mem_cons.2 ⟨?_, hmore⟩, hr⟩
          simpa [Ne.symm ha] using hpiece

/-- What `cutAt` gives is a cut. -/
theorem isCut_cutAt (sep : α) (l : List α) : IsCut sep l (cutAt sep l).1 (cutAt sep l).2 :=
  isCut_iff.2 rfl

/-- Cutting a list in two runs: the rest of the first is cut again with the second. -/
theorem cutAt_append (sep : α) (a b : List α) :
    cutAt sep (a ++ b) =
      ((cutAt sep a).1 ++ (cutAt sep ((cutAt sep a).2 ++ b)).1,
        (cutAt sep ((cutAt sep a).2 ++ b)).2) := by
  obtain ⟨ha, hap, -⟩ := isCut_cutAt sep a
  obtain ⟨hb, hbp, hbr⟩ := isCut_cutAt sep ((cutAt sep a).2 ++ b)
  -- The two cuts put together are a cut, and there is only one.
  refine isCut_iff.1 ⟨?_, ?_, hbr⟩
  · calc a ++ b = (cutAt sep a).1.flatMap (· ++ [sep]) ++ ((cutAt sep a).2 ++ b) := by
          rw [← List.append_assoc, ← ha]
      _ = _ := by
          conv_lhs => rw [hb]
          rw [List.flatMap_append, List.append_assoc]
  · intro piece hm
    rcases List.mem_append.1 hm with hm | hm
    · exact hap piece hm
    · exact hbp piece hm

end Cut

/-! ## Trimming -/

/-- `core` is the text without the blanks around it. -/
structure IsTrimmed (text core : List Char) : Prop where
  around : ∃ before after, text = before ++ core ++ after ∧
    (∀ c ∈ before, Text.isBlank c = true) ∧ ∀ c ∈ after, Text.isBlank c = true
  head : ∀ c, core.head? = some c → Text.isBlank c = false
  last : ∀ c, core.getLast? = some c → Text.isBlank c = false

/-- Dropping blanks at the start drops those before the first other character. -/
theorem dropWhile_append_of_blank {before l : List Char}
    (hb : ∀ c ∈ before, Text.isBlank c = true)
    (hl : ∀ c, l.head? = some c → Text.isBlank c = false) :
    (before ++ l).dropWhile Text.isBlank = l := by
  rw [List.dropWhile_append_of_pos hb]
  cases l with
  | nil => rfl
  | cons c l => simp [hl c rfl]

/-- What is left after dropping blanks does not begin with one. -/
theorem isBlank_of_head?_dropWhile {l : List Char} {c : Char}
    (h : (l.dropWhile Text.isBlank).head? = some c) : Text.isBlank c = false := by
  have := List.head?_dropWhile_not Text.isBlank l
  rw [h] at this
  exact this

/-- Trimming removes the blanks around a text, and no other text is what is left. -/
theorem isTrimmed_iff {text core : List Char} :
    IsTrimmed text core ↔ Text.trimChars text = core := by
  constructor
  · rintro ⟨⟨before, after, rfl, hb, ha⟩, hh, hl⟩
    rw [Text.trimChars, List.append_assoc]
    rcases core with _ | ⟨c, core⟩
    · rw [List.dropWhile_append_of_pos hb, List.nil_append, List.dropWhile_eq_nil_iff.2 ha]
      rfl
    · rw [dropWhile_append_of_blank hb (by simpa using hh), Text.dropEndWhile,
        List.reverse_append, dropWhile_append_of_blank (by simpa using ha) _,
        List.reverse_reverse]
      rwa [List.head?_reverse]
  · rintro rfl
    -- The blanks at the start are cut off first, then those at the end of what is left.
    have hstart := List.takeWhile_append_dropWhile (p := Text.isBlank) (l := text)
    set kept := text.dropWhile Text.isBlank with hkept
    have hend := List.takeWhile_append_dropWhile (p := Text.isBlank) (l := kept.reverse)
    set core := kept.reverse.dropWhile Text.isBlank with hcore
    have htrim : Text.trimChars text = core.reverse := rfl
    have hjoin : kept = core.reverse ++ (kept.reverse.takeWhile Text.isBlank).reverse := by
      rw [← List.reverse_append, hend, List.reverse_reverse]
    rw [htrim]
    refine ⟨⟨text.takeWhile Text.isBlank, (kept.reverse.takeWhile Text.isBlank).reverse,
      ?_, ?_, ?_⟩, ?_, ?_⟩
    · rw [List.append_assoc, ← hjoin, hstart]
    · exact fun c hc => List.mem_takeWhile_imp hc
    · exact fun c hc => List.mem_takeWhile_imp (List.mem_reverse.1 hc)
    · intro c hc
      apply isBlank_of_head?_dropWhile (l := text)
      rw [← hkept, hjoin, List.head?_append, hc, Option.some_or]
    · intro c hc
      rw [List.getLast?_reverse] at hc
      exact isBlank_of_head?_dropWhile hc

/-! ## Lines -/

/-- The line that a piece of the octets is: its text without the blanks around it, and none if
nothing is left. -/
def IsLine (octets : List UInt8) (line : Option String) : Prop :=
  ∃ text core, Utf8.Lossy octets text ∧ IsTrimmed text core ∧
    line = if core = [] then none else some (String.ofList core)

/-- The lines of a whole body: those that end with a line feed, without the blank ones, and the one
that ends with the body. -/
def Framed (octets : List UInt8) (lines : List String) (last : Option String) : Prop :=
  ∃ pieces rest shown, IsCut 0x0A octets pieces rest ∧ List.Forall₂ IsLine pieces shown ∧
    lines = shown.filterMap id ∧ IsLine rest last

namespace Framer

/-- The line of a piece of the octets. -/
def lineOf (octets : List UInt8) : Option String := line? (Utf8.lossy octets)

/-- The lines of a body that end with a line feed. -/
def endedLines (octets : List UInt8) : List String := (cutAt 0x0A octets).1.filterMap lineOf

/-- The line of a body that ends with it. -/
def lastLine (octets : List UInt8) : Option String := lineOf (cutAt 0x0A octets).2

end Framer

theorem isLine_iff {octets : List UInt8} {line : Option String} :
    IsLine octets line ↔ Framer.lineOf octets = line := by
  simp only [IsLine, Utf8.lossy_iff, isTrimmed_iff, Framer.lineOf, Framer.line?]
  constructor
  · rintro ⟨text, core, rfl, rfl, rfl⟩
    simp [List.isEmpty_iff]
  · rintro rfl
    exact ⟨_, _, rfl, rfl, by simp [List.isEmpty_iff]⟩

/-- The lines of a whole body are determined. -/
theorem framed_iff {octets : List UInt8} {lines : List String} {last : Option String} :
    Framed octets lines last ↔
      Framer.endedLines octets = lines ∧ Framer.lastLine octets = last := by
  -- Each piece has exactly one line.
  have hshown : ∀ (pieces : List (List UInt8)) (shown : List (Option String)),
      List.Forall₂ IsLine pieces shown ↔ pieces.map Framer.lineOf = shown := by
    intro pieces shown
    rw [← List.forall₂_eq_eq_eq, List.forall₂_map_left_iff]
    simp only [← isLine_iff]
  simp only [Framed, isCut_iff, hshown, isLine_iff, Framer.endedLines, Framer.lastLine]
  constructor
  · rintro ⟨pieces, rest, shown, hcut, rfl, rfl, rfl⟩
    simp [hcut, List.filterMap_map]
  · rintro ⟨rfl, rfl⟩
    exact ⟨_, _, _, rfl, rfl, by simp [List.filterMap_map], rfl⟩

end DaemonRpc

import DaemonRpc.Proofs.Url.Scheme
import DaemonRpc.Proofs.Url.FormReading
import Mathlib.Data.List.TakeWhile

/-!
# The segments of a path

Every URL of HTTP that is read has a path of segments, in which no slash occurs (`Url.HasSegments`,
`Url.hasSegments_of_parse`), so its segments are told by its written form (`Url.pieces_write`). A
segment is ordinary (`Url.IsOrdinary`) if it is read as it is: it does not stand for a directory,
and it holds no character that separates, ends or is encoded. A reference of ordinary segments is
joined to the directory of its base, and puts nothing else in its place (`Url.join_ordinary`).
-/

namespace DaemonRpc

/-- Where nothing is to be dropped, all is kept. -/
theorem Text.dropEndWhile_dropWhile {α : Type} {p : α → Bool} {l : List α}
    (h : ∀ a ∈ l, p a = false) : dropEndWhile p (l.dropWhile p) = l := by
  have hkeep : ∀ l : List α, (∀ a ∈ l, p a = false) → l.dropWhile p = l := by
    intro l hl
    cases l with
    | nil => rfl
    | cons a l => simp [hl a List.mem_cons_self]
  rw [dropEndWhile, hkeep l h, hkeep l.reverse (by simpa using h), List.reverse_reverse]

namespace Url

/-! ## Pieces -/

section Pieces

variable {α : Type} {isSeparator : α → Bool}

/-- No separator occurs in a piece. -/
theorem Form.isSeparator_of_mem_pieces {text piece : List α}
    (h : piece ∈ Form.pieces isSeparator text) : ∀ a ∈ piece, isSeparator a = false := by
  induction text generalizing piece with
  | nil =>
    obtain rfl : piece = [] := by simpa [Form.pieces] using h
    simp
  | cons a text ih =>
    rw [Form.pieces] at h
    split at h
    · next hnil => exact absurd hnil (Form.pieces_ne_nil text)
    · next first more hpieces =>
      rw [hpieces] at ih
      split at h
      · rcases List.mem_cons.1 h with rfl | h
        · simp
        · exact ih h
      · next ha =>
        rcases List.mem_cons.1 h with rfl | h
        · exact List.forall_mem_cons.2 ⟨by simpa using ha, ih List.mem_cons_self⟩
        · exact ih (List.mem_cons_of_mem _ h)

end Pieces

/-- What is joined with a separator that does not occur in it is taken apart again. -/
theorem pieces_joinWith {isSeparator : Char → Bool} {separator : Char}
    (hseparator : isSeparator separator = true) {segments : List (List Char)} (hne : segments ≠ [])
    (h : ∀ segment ∈ segments, ∀ c ∈ segment, isSeparator c = false) :
    Form.pieces isSeparator (joinWith separator segments) = segments := by
  fun_induction joinWith separator segments with
  | case1 => exact absurd rfl hne
  | case2 piece => exact Form.pieces_of_not_mem (h piece List.mem_cons_self)
  | case3 piece more hmore ih =>
    obtain ⟨hpiece, hrest⟩ := List.forall_mem_cons.1 h
    have hne' : more ≠ [] := fun heq => hmore heq
    rw [Form.pieces_append hpiece hseparator, ih hne' hrest]

/-- Texts that are joined one after the other are joined at once. -/
theorem joinWith_append (separator : Char) {left right : List (List Char)} (hleft : left ≠ [])
    (hright : right ≠ []) :
    joinWith separator (left ++ right) =
      joinWith separator left ++ separator :: joinWith separator right := by
  fun_induction joinWith separator left with
  | case1 => exact absurd rfl hleft
  | case2 piece =>
    obtain ⟨first, more, rfl⟩ := List.exists_cons_of_ne_nil hright
    rfl
  | case3 piece more hmore ih =>
    have hne : more ≠ [] := fun heq => hmore heq
    obtain ⟨second, rest, rfl⟩ := List.exists_cons_of_ne_nil hne
    simp only [List.cons_append, joinWith] at ih ⊢
    rw [ih hne, List.append_assoc]
    rfl

/-! ## The written form of a path -/

theorem write_segments {list : List (List Char)} (hne : list ≠ []) :
    (Path.segments list).write = '/' :: joinWith '/' list := by
  fun_induction joinWith '/' list with
  | case1 => exact absurd rfl hne
  | case2 piece => simp [Path.write]
  | case3 piece more hmore ih =>
    have hrest := ih fun heq => hmore heq
    rw [Path.write] at hrest ⊢
    rw [List.flatMap_cons, hrest]
    rfl

/-- The segments of a path are told by its written form. -/
theorem pieces_write {list : List (List Char)} (h : ∀ segment ∈ list, '/' ∉ segment) :
    Form.pieces (· == '/') (Path.segments list).write = [] :: list := by
  have hfree : ∀ segment ∈ list, ∀ c ∈ segment, (c == '/') = false := by
    intro segment hsegment c hc
    rw [beq_eq_false_iff_ne]
    rintro rfl
    exact h segment hsegment hc
  cases list with
  | nil => rfl
  | cons first more =>
    have hpieces := @pieces_joinWith (· == '/') '/' rfl _ (List.cons_ne_nil first more) hfree
    have hslash := @Form.pieces_append _ (· == '/') [] (by simp) '/' rfl
      (joinWith '/' (first :: more))
    rwa [hpieces, List.nil_append, ← write_segments (List.cons_ne_nil first more)] at hslash

/-! ## URLs whose path has segments -/

/-- The path of the URL is one of segments, and no slash occurs in them. -/
def HasSegments (u : Url) : Prop :=
  ∃ list, u.path = .segments list ∧ ∀ segment ∈ list, '/' ∉ segment

theorem not_mem_percentEncode {set : EncodeSet} {text : List Char} (h : '/' ∉ text) :
    '/' ∉ percentEncode set text := by
  have hdigit : ∀ n < 16, upperHexDigit n ≠ '/' := by decide
  have hoctet : ∀ b : UInt8, '/' ∉ percentOctet b := by
    intro b hb
    have hsize := b.toNat_lt
    simp only [percentOctet, List.mem_cons, List.not_mem_nil, or_false] at hb
    rcases hb with hb | hb | hb
    · cases hb
    · exact hdigit _ (by omega) hb.symm
    · exact hdigit _ (by omega) hb.symm
  intro hmem
  obtain ⟨c, hc, hmem⟩ := List.mem_flatMap.1 hmem
  split at hmem
  · obtain ⟨b, -, hb⟩ := List.mem_flatMap.1 hmem
    exact hoctet b hb
  · obtain rfl := List.mem_singleton.1 hmem
    exact h hc

section Reading

variable {kind : SchemeKind} {given pieces : List (List Char)} {piece text : List Char}

theorem shorten_subset : shorten kind given ⊆ given := by
  rw [shorten.eq_def]
  split
  · split
    · exact List.Subset.refl _
    · exact List.nil_subset _
  · exact List.dropLast_subset given

theorem slash_pushSegment (hgiven : ∀ segment ∈ given, '/' ∉ segment) (hpiece : '/' ∉ piece) :
    ∀ segment ∈ pushSegment kind given piece, '/' ∉ segment := by
  intro segment hsegment
  rw [pushSegment.eq_def] at hsegment
  split at hsegment
  · split at hsegment
    · obtain rfl := List.mem_singleton.1 hsegment
      intro hslash
      simp only [List.mem_cons, List.not_mem_nil, or_false] at hslash hpiece
      rcases hslash with hslash | hslash
      · exact hpiece (.inl hslash)
      · cases hslash
    · obtain rfl := List.mem_singleton.1 hsegment
      exact hpiece
  · rcases List.mem_append.1 hsegment with hsegment | hsegment
    · exact hgiven segment hsegment
    · obtain rfl := List.mem_singleton.1 hsegment
      exact hpiece

/-- No slash comes into a segment by reading. -/
theorem slash_readSegments (hgiven : ∀ segment ∈ given, '/' ∉ segment)
    (hpieces : ∀ piece ∈ pieces, '/' ∉ piece) :
    ∀ segment ∈ readSegments kind given pieces, '/' ∉ segment := by
  have hdirectory : ∀ list : List (List Char), (∀ segment ∈ list, '/' ∉ segment) →
      ∀ segment ∈ list ++ [[]], '/' ∉ segment := by
    intro list hlist segment hsegment
    rcases List.mem_append.1 hsegment with hsegment | hsegment
    · exact hlist segment hsegment
    · obtain rfl := List.mem_singleton.1 hsegment
      simp
  have hshorten : ∀ {list : List (List Char)}, (∀ segment ∈ list, '/' ∉ segment) →
      ∀ segment ∈ shorten kind list, '/' ∉ segment :=
    fun hlist segment hsegment => hlist segment (shorten_subset hsegment)
  fun_induction readSegments kind given pieces with
  | case1 => exact hgiven
  | case2 given last hdots => exact hdirectory _ (hshorten hgiven)
  | case3 given last hdots hdot => exact hdirectory _ hgiven
  | case4 given last hdots hdot => exact slash_pushSegment hgiven (hpieces last List.mem_cons_self)
  | case5 given piece next more hdots ih =>
    exact ih (hshorten hgiven) (List.forall_mem_cons.1 hpieces).2
  | case6 given piece next more hdots hdot ih => exact ih hgiven (List.forall_mem_cons.1 hpieces).2
  | case7 given piece next more hdots hdot ih =>
    obtain ⟨hpiece, hmore⟩ := List.forall_mem_cons.1 hpieces
    exact ih (slash_pushSegment hgiven hpiece) hmore

theorem slash_readPath (hgiven : ∀ segment ∈ given, '/' ∉ segment) :
    ∃ list, readPath kind given text = .segments list ∧ ∀ segment ∈ list, '/' ∉ segment := by
  refine ⟨_, rfl, fun segment hsegment => ?_⟩
  have hpieces : ∀ piece ∈ (Form.pieces (isSeparator kind) text).map (percentEncode pathSet),
      '/' ∉ piece := by
    intro piece hpiece
    obtain ⟨raw, hraw, rfl⟩ := List.mem_map.1 hpiece
    refine not_mem_percentEncode fun hslash => ?_
    have hnot := Form.isSeparator_of_mem_pieces hraw '/' hslash
    cases hnot
  have hread := @slash_readSegments kind _ _ hgiven hpieces
  -- Only the path of a file loses its empty segments.
  rw [dropEmptyStart.eq_def] at hsegment
  split at hsegment
  · split at hsegment
    · obtain rfl := List.mem_singleton.1 hsegment
      simp
    · exact hread segment (List.dropWhile_subset _ hsegment)
  · exact hread segment hsegment

end Reading

variable {scheme text : List Char} {u : Url}

theorem path_withTail (u : Url) (text : List Char) : (u.withTail text).path = u.path := by
  unfold withTail
  split <;> rfl

theorem hasSegments_withTail (h : u.HasSegments) (text : List Char) :
    (u.withTail text).HasSegments := by
  rwa [HasSegments, path_withTail]

theorem hasSegments_withPath {given : List (List Char)} (h : ∀ segment ∈ given, '/' ∉ segment)
    (u : Url) (text : List Char) : (u.withPath given text).HasSegments := by
  rw [withPath, HasSegments, path_withTail]
  exact slash_readPath h

theorem hasSegments_of_readFromAuthority (h : readFromAuthority scheme text = .ok u) :
    u.HasSegments := by
  obtain ⟨v, rest, -, hpath, hu⟩ := exists_of_readFromAuthority h
  -- Behind the server all that is read is put into an empty path.
  have hv : v.HasSegments := ⟨[], hpath, by simp⟩
  rcases hu with rfl | rfl | rfl
  · exact hv
  · exact hasSegments_withTail hv rest
  · exact hasSegments_withPath (by simp) v rest

theorem hasSegments_of_readFile (h : readFile none text = .ok u) : u.HasSegments := by
  obtain ⟨v, rest, -, hu⟩ := exists_of_readFile h
  have hv : (v.withPath [] rest).HasSegments := hasSegments_withPath (by simp) v rest
  rcases hu with rfl | rfl
  · exact hv
  · obtain ⟨list, hpath, hlist⟩ := hv
    refine ⟨list, ?_, hlist⟩
    rw [withoutHostOfDrive]
    repeat' split
    all_goals exact hpath

/-- Every URL of HTTP that is read has a path of segments. -/
theorem hasSegments_of_parse {s : String} (h : parse s = .ok u) (hhttp : u.IsHttp) :
    u.HasSegments := by
  rw [parse, read] at h
  split at h
  · next scheme rest hscheme =>
    unfold readAfterScheme at h
    split at h
    · exact hasSegments_of_readFile h
    · exact hasSegments_of_readFromAuthority h
    · next hkind =>
      split at h
      · exact hasSegments_of_readFromAuthority h
      · obtain rfl := Except.ok.inj h
        exact hasSegments_withPath (by simp) _ _
      · -- A path without structure goes with a scheme that is not the one of HTTP.
        obtain rfl := Except.ok.inj h
        have hspecial := hhttp.kind
        rw [kind, scheme_withTail, hkind] at hspecial
        cases hspecial
  · cases h

/-! ## Ordinary segments -/

/-- The character is one that no part of a URL reserves for a purpose. -/
def isUnreserved (c : Char) : Bool :=
  isLetter c || Text.isDigit c || c == '-' || c == '_' || c == '~' || c == '.'

/-- The segment is read as it is. -/
structure IsOrdinary (segment : List Char) : Prop where
  /-- The segment is not empty. -/
  ne_nil : segment ≠ []
  /-- The segment does not stand for the current directory. -/
  ne_dot : segment ≠ ['.']
  /-- The segment does not stand for the directory above. -/
  ne_dots : segment ≠ ['.', '.']
  /-- All characters are unreserved. -/
  unreserved : ∀ c ∈ segment, isUnreserved c = true

/-- An unreserved character is visible, separates nothing and is not encoded. -/
theorem unreserved_char {c : Char} (h : isUnreserved c = true) :
    0x20 < c.toNat ∧ Text.isBlank c = false ∧ isSlash c = false ∧ endsPath c = false ∧ c ≠ ':' ∧
      c ≠ '%' ∧ pathSet c = false := by
  have hsmall : c.toNat < 128 := by
    simp only [isUnreserved, isLetter, Text.isDigit, Bool.or_eq_true, Bool.and_eq_true,
      decide_eq_true_eq, beq_iff_eq] at h
    have hle : ∀ bound : Char, c ≤ bound → c.toNat ≤ bound.toNat := fun _ hbound => hbound
    rcases h with ((((((⟨-, h⟩ | ⟨-, h⟩) | ⟨-, h⟩) | rfl) | rfl) | rfl) | rfl)
    · exact Nat.lt_of_le_of_lt (hle _ h) (by decide)
    · exact Nat.lt_of_le_of_lt (hle _ h) (by decide)
    · exact Nat.lt_of_le_of_lt (hle _ h) (by decide)
    all_goals decide
  have hall : ∀ c : Char, c.toNat < 128 → isUnreserved c = true →
      0x20 < c.toNat ∧ Text.isBlank c = false ∧ isSlash c = false ∧ endsPath c = false ∧ c ≠ ':' ∧
        c ≠ '%' ∧ pathSet c = false :=
    Text.forall_ascii (by decide +kernel)
  exact hall c hsmall h

/-- A dot is written as it is or with a percent sign. -/
theorem of_isDot {text : List Char} (h : isDot text = true) : text = ['.'] ∨ '%' ∈ text := by
  rw [isDot, Bool.or_eq_true, beq_iff_eq, beq_iff_eq] at h
  refine h.imp_right fun hcoded => ?_
  match text with
  | [] => cases hcoded
  | c :: text =>
    have hpercent : Text.lowerAscii c = '%' := (List.cons.inj hcoded).1
    suffices hc : c = '%' from hc ▸ List.mem_cons_self
    by_cases hsmall : c.toNat < 128
    · have hcapital : ∀ c : Char, c.toNat < 128 → Text.lowerAscii c = '%' → c = '%' :=
        Text.forall_ascii (by decide +kernel)
      exact hcapital c hsmall hpercent
    · have hlarge : ¬('A' ≤ c ∧ c ≤ 'Z') := fun h =>
        hsmall (Nat.lt_of_le_of_lt (show c.toNat ≤ 'Z'.toNat from h.2) (by decide))
      rwa [Text.lowerAscii, if_neg hlarge] at hpercent

theorem of_isDoubleDot {segment : List Char} (h : isDoubleDot segment = true) :
    segment = ['.', '.'] ∨ '%' ∈ segment := by
  unfold isDoubleDot at h
  split at h
  · next rest =>
    rcases of_isDot h with rfl | hpercent
    · exact .inl rfl
    · exact .inr (List.mem_cons_of_mem _ hpercent)
  · next a b c rest _ =>
    rcases of_isDot (Bool.and_eq_true_iff.1 h).1 with heq | hpercent
    · cases heq
    · exact .inr (List.mem_append_left rest hpercent)
  · cases h

namespace IsOrdinary

variable {segment : List Char}

theorem not_mem_percent (h : IsOrdinary segment) : '%' ∉ segment := fun hmem =>
  (unreserved_char (h.unreserved _ hmem)).2.2.2.2.2.1 rfl

theorem isSingleDot (h : IsOrdinary segment) : isSingleDot segment = false := by
  rw [← Bool.not_eq_true]
  exact fun hdot => (of_isDot hdot).elim h.ne_dot h.not_mem_percent

theorem isDoubleDot (h : IsOrdinary segment) : isDoubleDot segment = false := by
  rw [← Bool.not_eq_true]
  exact fun hdots => (of_isDoubleDot hdots).elim h.ne_dots h.not_mem_percent

theorem percentEncode (h : IsOrdinary segment) : percentEncode pathSet segment = segment :=
  percentEncode_of_forall fun c hc => (unreserved_char (h.unreserved c hc)).2.2.2.2.2.2

theorem isSeparator (h : IsOrdinary segment) (kind : SchemeKind) :
    ∀ c ∈ segment, isSeparator kind c = false := by
  intro c hc
  have hslash := (unreserved_char (h.unreserved c hc)).2.2.1
  rw [isSlash, Bool.or_eq_false_iff] at hslash
  rw [Url.isSeparator, hslash.1, hslash.2, Bool.and_false, Bool.or_false]

end IsOrdinary

variable {segments : List (List Char)}

/-- Ordinary segments are put after those that are given. -/
theorem readSegments_ordinary {kind : SchemeKind} (hkind : kind ≠ .file)
    (h : ∀ segment ∈ segments, IsOrdinary segment) (given : List (List Char)) :
    readSegments kind given segments = given ++ segments := by
  have hpush : ∀ given segment, pushSegment kind given segment = given ++ [segment] := by
    intro given segment
    rw [pushSegment.eq_def]
    split
    · exact absurd rfl hkind
    · rfl
  fun_induction readSegments kind given segments with
  | case1 given => exact (List.append_nil given).symm
  | case2 given last hdots | case5 given last next more hdots ih =>
    rw [(h last List.mem_cons_self).isDoubleDot] at hdots
    cases hdots
  | case3 given last hdots hdot | case6 given last next more hdots hdot ih =>
    rw [(h last List.mem_cons_self).isSingleDot] at hdot
    cases hdot
  | case4 given last hdots hdot => exact hpush given last
  | case7 given segment next more hdots hdot ih =>
    rw [ih (List.forall_mem_cons.1 h).2, hpush, List.append_assoc]
    rfl

/-- What ordinary segments are written as holds nothing but unreserved characters and slashes. -/
theorem mem_joinWith_ordinary (h : ∀ segment ∈ segments, IsOrdinary segment) {c : Char}
    (hc : c ∈ joinWith '/' segments) : c = '/' ∨ isUnreserved c = true := by
  fun_induction joinWith '/' segments with
  | case1 => cases hc
  | case2 piece => exact .inr ((h piece List.mem_cons_self).unreserved c hc)
  | case3 piece more hmore ih =>
    obtain ⟨hpiece, hrest⟩ := List.forall_mem_cons.1 h
    rcases List.mem_append.1 hc with hc | hc
    · exact .inr (hpiece.unreserved c hc)
    · rcases List.mem_cons.1 hc with rfl | hc
      · exact .inl rfl
      · exact ih hrest hc

theorem slash_or_unreserved_char {c : Char} (h : c = '/' ∨ isUnreserved c = true) :
    0x20 < c.toNat ∧ Text.isBlank c = false ∧ endsPath c = false ∧ c ≠ ':' := by
  rcases h with rfl | h
  · decide
  · obtain ⟨hvisible, hblank, -, hends, hcolon, -, -⟩ := unreserved_char h
    exact ⟨hvisible, hblank, hends, hcolon⟩

/-- A reference of ordinary segments begins with an unreserved character. -/
theorem exists_joinWith_ordinary (h : ∀ segment ∈ segments, IsOrdinary segment)
    (hne : segments ≠ []) :
    ∃ c rest, joinWith '/' segments = c :: rest ∧ isUnreserved c = true := by
  obtain ⟨first, more, rfl⟩ := List.exists_cons_of_ne_nil hne
  have hfirst := h first List.mem_cons_self
  obtain ⟨c, rest, rfl⟩ := List.exists_cons_of_ne_nil hfirst.ne_nil
  have hc := hfirst.unreserved c List.mem_cons_self
  cases more with
  | nil => exact ⟨c, rest, rfl, hc⟩
  | cons second more => exact ⟨c, rest ++ '/' :: joinWith '/' (second :: more), rfl, hc⟩

/-- A text of visible characters is read as it is. -/
theorem clean_of_visible {text : List Char} (h : ∀ c ∈ text, 0x20 < c.toNat) :
    clean text = text := by
  rw [clean, Text.dropEndWhile_dropWhile fun c hc => by simpa using h c hc]
  refine List.filter_eq_self.2 fun c hc => ?_
  have hc := h c hc
  simp only [Bool.and_eq_true, bne_iff_ne]
  refine ⟨⟨?_, ?_⟩, ?_⟩ <;> (rintro rfl; exact absurd hc (by decide))

/-- A text without a colon names no scheme. -/
theorem splitScheme_of_not_mem {text : List Char} (h : ':' ∉ text) : splitScheme text = none := by
  rw [splitScheme]
  split
  · next rest _ hrest =>
    exact absurd (List.dropWhile_subset isSchemeChar (hrest ▸ List.mem_cons_self)) h
  · rfl

/-- Ordinary segments are put after the segments that are given. -/
theorem readPath_ordinary {kind : SchemeKind} (hkind : kind ≠ .file)
    (h : ∀ segment ∈ segments, IsOrdinary segment) (hne : segments ≠ [])
    (given : List (List Char)) :
    readPath kind given (joinWith '/' segments) = .segments (given ++ segments) := by
  have hpieces : Form.pieces (isSeparator kind) (joinWith '/' segments) = segments :=
    pieces_joinWith rfl hne fun segment hsegment => (h segment hsegment).isSeparator kind
  have hencode : segments.map (percentEncode pathSet) = segments :=
    (List.map_congr_left fun segment hsegment => (h segment hsegment).percentEncode).trans
      (List.map_id segments)
  have hstart : ∀ list, dropEmptyStart kind list = list := by
    intro list
    rw [dropEmptyStart.eq_def]
    split
    · exact absurd rfl hkind
    · rfl
  rw [readPath, hpieces, hencode, readSegments_ordinary hkind h, hstart]

/-- The segments of the directory of a path: all but the last one. -/
def directory (u : Url) : List (List Char) := (segmentsOf u).dropLast

/-- A reference of ordinary segments is joined to the directory of its base. Query and fragment of
the base are dropped. -/
theorem join_ordinary {base : Url} (hhttp : base.IsHttp) (hbase : base.isBase = true)
    (h : ∀ segment ∈ segments, IsOrdinary segment) (hne : segments ≠ []) :
    base.join (String.ofList (joinWith '/' segments)) =
      .ok { base with
        path := .segments (base.directory ++ segments), query := none, fragment := none } := by
  have hchars := fun c hc => slash_or_unreserved_char (mem_joinWith_ordinary h (c := c) hc)
  have hkind : base.kind ≠ .file := by simp [hhttp.kind]
  -- Nothing is cleaned away, no scheme is named, and the path goes on to the end of the text.
  have hclean := clean_of_visible fun c hc => (hchars c hc).1
  have hscheme : splitScheme (clean (joinWith '/' segments)) = none := by
    rw [hclean]
    exact splitScheme_of_not_mem fun hcolon => (hchars _ hcolon).2.2.2 rfl
  have hends : ∀ c ∈ joinWith '/' segments, (!endsPath c) = true := by
    intro c hc
    rw [(hchars c hc).2.2.1]
    rfl
  have hrelative : readRelative base (joinWith '/' segments) =
      .ok (withPath base base.directory (joinWith '/' segments)) := by
    -- The first character decides how a reference is read.
    obtain ⟨c, rest, hhead, hc⟩ := exists_joinWith_ordinary h hne
    have hslash := (unreserved_char hc).2.2.1
    have hc := hends c (hhead ▸ List.mem_cons_self)
    rw [hhead]
    unfold readRelative
    split
    · next heq => cases heq
    · next heq =>
      obtain rfl := (List.cons.inj heq).1
      cases hc
    · next heq =>
      obtain rfl := (List.cons.inj heq).1
      cases hc
    · next heq =>
      obtain ⟨rfl, rfl⟩ := List.cons.inj heq
      rw [hslash]
      rfl
  rw [join, String.toList_ofList, read_of_no_scheme hscheme hkind hbase, hclean, hrelative,
    withPath, List.takeWhile_eq_self_iff.2 hends, List.dropWhile_eq_nil_iff.2 hends,
    readPath_ordinary hkind h hne]
  rfl

/-! ## Directories -/

/-- The path with a slash at its end. -/
def closed (path : List Char) : List Char :=
  if path.getLast? = some '/' then path else path ++ ['/']

/-- The path of a directory is the one of the URL, closed. -/
theorem write_asDirectory {u : Url} (h : u.HasSegments) :
    (Path.segments u.asDirectory.directory).write ++ ['/'] = closed u.path.write := by
  obtain ⟨list, hpath, hlist⟩ := h
  rcases List.eq_nil_or_concat list with rfl | ⟨before, last, rfl⟩
  · simp [asDirectory, directory, segmentsOf, hpath, Path.write, closed]
  · rw [List.concat_eq_append] at hpath hlist
    have hwrite : (Path.segments (before ++ [last])).write =
        (Path.segments before).write ++ '/' :: last := by
      simp [Path.write]
    rcases List.eq_nil_or_concat last with rfl | ⟨start, c, rfl⟩
    · simp [asDirectory, directory, segmentsOf, hpath, hwrite, closed]
    · -- The last segment is not empty and has no slash at its end, so the path has none.
      rw [List.concat_eq_append] at hpath hlist hwrite
      have hopen : c ≠ '/' := by
        rintro rfl
        exact hlist (start ++ ['/']) (by simp) (by simp)
      have hlast : (Path.segments (before ++ [start ++ [c]])).write.getLast? = some c := by
        rw [hwrite, ← List.cons_append, ← List.append_assoc, List.getLast?_concat]
      simp [asDirectory, directory, segmentsOf, hpath, closed, hopen, hlast]

/-- Segments are written behind a directory. -/
theorem write_append {dirs : List (List Char)} (hne : segments ≠ []) :
    (Path.segments (dirs ++ segments)).write =
      (Path.segments dirs).write ++ '/' :: joinWith '/' segments := by
  rw [← write_segments hne]
  exact List.flatMap_append

theorem slash_directory {u : Url} (h : u.HasSegments) :
    ∀ segment ∈ u.asDirectory.directory, '/' ∉ segment := by
  obtain ⟨list, hpath, hlist⟩ := h
  intro segment hsegment
  have hmem : segment ∈ list := by
    rw [directory, segmentsOf, asDirectory, hpath] at hsegment
    by_cases hlast : list.getLast? = some []
    · simp only [hlast, if_true, hpath] at hsegment
      exact List.dropLast_subset list hsegment
    · simpa only [hlast, if_false, List.dropLast_concat] using hsegment
  exact hlist segment hmem

/-- A URL is told by its server, its path in written form, its query and its fragment. -/
theorem eq_of_write {u v : Url} (hu : u.HasSegments) (hv : v.HasSegments)
    (hserver : u.server = v.server) (hpath : u.path.write = v.path.write)
    (hquery : u.query = v.query) (hfragment : u.fragment = v.fragment) : u = v := by
  obtain ⟨left, hleft, hleftFree⟩ := hu
  obtain ⟨right, hright, hrightFree⟩ := hv
  have hsegments : left = right := by
    rw [hleft, hright] at hpath
    have hpieces := pieces_write hleftFree
    rw [hpath, pieces_write hrightFree] at hpieces
    exact (List.cons.inj hpieces).2.symm
  subst hsegments
  cases u
  cases v
  simp_all [server]

end Url

end DaemonRpc

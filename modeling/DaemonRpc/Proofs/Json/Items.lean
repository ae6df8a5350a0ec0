import DaemonRpc.Proofs.Json.Readers

/-!
# Items of a text

What a text holds, said by its octets: an item that may be `null` (`Nullable`), the next key of an
object (`NextKey`), and a whole text, around which nothing but blanks may stand.
-/

namespace DaemonRpc.Json

open Cursor

variable {α : Type} {octets rest inner : List UInt8} {c d : Cursor}

/-- What comes out of two steps came out of the second, on what came out of the first. -/
theorem exists_of_bind {ε β : Type} {x : Except ε α} {f : α → Except ε β} {b : β}
    (h : (x >>= f) = .ok b) : ∃ a, x = .ok a ∧ f a = .ok b := by
  cases x with
  | error e => cases h
  | ok a => exact ⟨a, rfl, h⟩

/-! ## Blanks -/

theorem rest_skipBlanks (c : Cursor) : c.skipBlanks.rest = c.rest.dropWhile isSeparator := rfl

theorem skipBlanks_skipBlanks (c : Cursor) : c.skipBlanks.skipBlanks = c.skipBlanks := by
  have hnone : (c.rest.dropWhile isSeparator).takeWhile isSeparator = [] := by
    have hhead := List.head?_dropWhile_not isSeparator c.rest
    cases hrest : c.rest.dropWhile isSeparator with
    | nil => rfl
    | cons b more =>
      rw [hrest] at hhead
      simp [show isSeparator b = false from hhead]
  have hsame : (c.rest.dropWhile isSeparator).dropWhile isSeparator =
      c.rest.dropWhile isSeparator := by
    have hsplit := List.takeWhile_append_dropWhile (p := isSeparator)
      (l := c.rest.dropWhile isSeparator)
    rwa [hnone] at hsplit
  simp only [Cursor.skipBlanks, skipWhile, hnone, hsame, List.foldl_nil]

section Marks

variable {char : Char} (hchar : isSeparator (octet char) = false)

include hchar

/-- Behind blanks stands a mark, if the octets go on with it. -/
theorem rest_skipBlanks_of_mark (h : Mark char c.rest rest) :
    c.skipBlanks.rest = octet char :: rest :=
  (mark_iff hchar).1 h

theorem peek?_of_mark (h : Mark char c.rest rest) : c.skipBlanks.peek? = some (octet char) := by
  rw [peek?, rest_skipBlanks_of_mark hchar h, List.head?_cons]

theorem rest_advance_of_mark (h : Mark char c.rest rest) : c.skipBlanks.advance.rest = rest := by
  rw [rest_advance, rest_skipBlanks_of_mark hchar h, List.tail_cons]

theorem mark_of_peek? (h : c.skipBlanks.peek? = some (octet char)) :
    Mark char c.rest c.skipBlanks.advance.rest := by
  obtain ⟨more, hmore⟩ := List.head?_eq_some_iff.1 h
  rw [mark_iff hchar, rest_advance, hmore]
  exact hmore

/-- A reader that goes past a mark takes this mark. -/
theorem takes_iff_mark {read : Reader Unit}
    (h : ∀ c d, read c = .ok ((), d) ↔
      c.skipBlanks.peek? = some (octet char) ∧ d = c.skipBlanks.advance) :
    Takes read octets () rest ↔ Mark char octets rest := by
  constructor
  · intro ht
    obtain ⟨d, hread, rfl⟩ := ht ⟨octets, ⟨1, 0⟩⟩ rfl
    obtain ⟨hpeek, rfl⟩ := (h _ _).1 hread
    exact mark_of_peek? (c := ⟨octets, ⟨1, 0⟩⟩) hchar hpeek
  · intro hmark c hc
    subst hc
    exact ⟨_, (h _ _).2 ⟨peek?_of_mark hchar hmark, rfl⟩, rest_advance_of_mark hchar hmark⟩

end Marks

/-! ## Items that may be null -/

/-- A decoder of items that are neither containers nor null. -/
structure Decoder.IsScalar (decoder : Decoder α) : Prop where
  steady : Steady decoder.ofText
  /-- Blanks in front do not matter. -/
  skipBlanks : ∀ c : Cursor, decoder.ofText c.skipBlanks = decoder.ofText c
  /-- An item begins neither like null nor like the end of a list. -/
  starts : ∀ {c d : Cursor} {a : α}, decoder.ofText c = .ok (a, d) →
    ∃ b, c.skipBlanks.peek? = some b ∧ b ≠ octet 'n' ∧ b ≠ octet ']'

theorem readItem_skipBlanks (read : UInt8 → Reader α) (c : Cursor) :
    readItem read c.skipBlanks = readItem read c := by
  unfold readItem
  rw [skipBlanks_skipBlanks]

theorem isScalar_string : Decoder.string.IsScalar where
  steady := steady_string
  skipBlanks := by
    unfold Decoder.string
    dsimp only
    exact readItem_skipBlanks _
  starts := by
    intro c d a h
    unfold Decoder.string at h
    dsimp only [readItem] at h
    split at h
    · cases h
    · next b hpeek =>
      split at h
      · next hb => exact ⟨b, hpeek, by subst hb; decide, by subst hb; decide⟩
      · cases h

theorem isScalar_integer (low high : Int) (typeName : String) :
    (Decoder.integer low high typeName).IsScalar where
  steady := steady_integer low high typeName
  skipBlanks := by
    unfold Decoder.integer
    dsimp only
    exact readItem_skipBlanks _
  starts := by
    intro c d a h
    unfold Decoder.integer at h
    dsimp only [readItem] at h
    split at h
    · cases h
    · next b hpeek =>
      split at h
      · next hb =>
        refine ⟨b, hpeek, ?_, ?_⟩ <;>
        · rintro rfl
          simp [atDigit, hpeek] at hb
          revert hb
          decide
      · cases h

/-- After blanks the octets hold null, or an item. -/
inductive Nullable (decoder : Decoder α) (octets : List UInt8) :
    Option α → List UInt8 → Prop where
  | null {blanks rest : List UInt8} (hblanks : AllSeparators blanks)
      (h : octets = blanks ++ ['n', 'u', 'l', 'l'].map octet ++ rest) :
      Nullable decoder octets none rest
  | item {a : α} {rest : List UInt8} (h : Takes decoder.ofText octets a rest) :
      Nullable decoder octets (some a) rest

theorem rest_of_readIdent {expected : List Char} (h : readIdent expected c = .ok ((), d)) :
    c.rest = expected.map octet ++ d.rest := by
  induction expected generalizing c with
  | nil =>
    obtain ⟨-, rfl⟩ := Prod.mk.inj (Except.ok.inj h)
    rfl
  | cons char more ih =>
    rw [readIdent] at h
    split at h
    · cases h
    · next b hpeek =>
      split at h
      · next hb =>
        obtain ⟨tail, htail⟩ := List.head?_eq_some_iff.1 hpeek
        have hmore := ih h
        rw [rest_advance, htail, List.tail_cons] at hmore
        rw [htail, hmore, hb]
        rfl
      · cases h

theorem readIdent_of_rest {expected : List Char} (h : c.rest = expected.map octet ++ rest) :
    ∃ d, readIdent expected c = .ok ((), d) ∧ d.rest = rest := by
  induction expected generalizing c with
  | nil => exact ⟨c, rfl, h⟩
  | cons char more ih =>
    have hpeek : c.peek? = some (octet char) := by
      rw [peek?, h]
      rfl
    obtain ⟨d, hread, hd⟩ := ih (c := c.advance) (by rw [rest_advance, h]; rfl)
    refine ⟨d, ?_, hd⟩
    simp only [readIdent, hpeek, if_true, hread]

theorem nullable_of_optional {decoder : Decoder α} (h : decoder.IsScalar) {given : Option α}
    (hread : decoder.optional.ofText c = .ok (given, d)) :
    Nullable decoder c.rest given d.rest := by
  unfold Decoder.optional at hread
  dsimp only at hread
  split at hread
  · next hn =>
    cases hnull : readIdent ['u', 'l', 'l'] c.skipBlanks.advance with
    | error e =>
      rw [hnull] at hread
      cases hread
    | ok passed =>
      rw [hnull] at hread
      obtain ⟨rfl, rfl⟩ := Prod.mk.inj (Except.ok.inj hread)
      have hrest := rest_of_readIdent hnull
      obtain ⟨blanks, hblanks, hoctets⟩ := mark_of_peek? (by decide) (eq_of_beq hn)
      refine .null hblanks ?_
      rw [hoctets, hrest]
      simp
  · cases hitem : decoder.ofText c.skipBlanks with
    | error e =>
      rw [hitem] at hread
      cases hread
    | ok taken =>
      rw [hitem] at hread
      obtain ⟨rfl, rfl⟩ := Prod.mk.inj (Except.ok.inj hread)
      rw [h.skipBlanks] at hitem
      exact .item (h.steady.takes hitem)

theorem optional_of_nullable {decoder : Decoder α} (h : decoder.IsScalar) {given : Option α}
    (hn : Nullable decoder c.rest given rest) :
    ∃ d, decoder.optional.ofText c = .ok (given, d) ∧ d.rest = rest := by
  unfold Decoder.optional
  dsimp only
  cases hn with
  | @null blanks _ hblanks hoctets =>
    have hmark : Mark 'n' c.rest (['u', 'l', 'l'].map octet ++ rest) :=
      ⟨blanks, hblanks, by simp [hoctets]⟩
    have hat : c.skipBlanks.at? 'n' = true := by simp [at?, peek?_of_mark (by decide) hmark]
    obtain ⟨d, hread, hd⟩ := readIdent_of_rest (rest_advance_of_mark (by decide) hmark)
    refine ⟨d, ?_, hd⟩
    rw [if_pos hat, hread]
    rfl
  | @item a _ htakes =>
    -- No item is taken for null, since none begins like it.
    obtain ⟨d, hread, hd⟩ := htakes c rfl
    obtain ⟨b, hpeek, hb, -⟩ := h.starts hread
    have hat : ¬ c.skipBlanks.at? 'n' = true := by simp [at?, hpeek, hb]
    refine ⟨d, ?_, hd⟩
    rw [if_neg hat, h.skipBlanks, hread]
    rfl

/-- An optional item is null or an item. -/
theorem takes_optional_iff {decoder : Decoder α} (h : decoder.IsScalar) {given : Option α} :
    Takes decoder.optional.ofText octets given rest ↔ Nullable decoder octets given rest := by
  constructor
  · intro ht
    obtain ⟨d, hread, rfl⟩ := ht ⟨octets, ⟨1, 0⟩⟩ rfl
    exact nullable_of_optional h hread
  · intro hn c hc
    subst hc
    exact optional_of_nullable h hn

theorem Nullable.unique {decoder : Decoder α} (h : decoder.IsScalar) {given given' : Option α}
    {rest' : List UInt8} (hn : Nullable decoder octets given rest)
    (hn' : Nullable decoder octets given' rest') : given = given' ∧ rest = rest' :=
  ((takes_optional_iff h).2 hn).unique ((takes_optional_iff h).2 hn')

/-- An optional item does not begin like the end of a list. -/
theorem starts_optional {decoder : Decoder α} (h : decoder.IsScalar) {given : Option α}
    (hread : decoder.optional.ofText c = .ok (given, d)) :
    ∃ b, c.skipBlanks.peek? = some b ∧ b ≠ octet ']' := by
  cases nullable_of_optional h hread with
  | @null blanks _ hblanks hoctets =>
    have hmark : Mark 'n' c.rest (['u', 'l', 'l'].map octet ++ d.rest) :=
      ⟨blanks, hblanks, by simp [hoctets]⟩
    exact ⟨octet 'n', peek?_of_mark (by decide) hmark, by decide⟩
  | item htakes =>
    obtain ⟨d', hitem, -⟩ := htakes c rfl
    obtain ⟨b, hpeek, -, hb⟩ := h.starts hitem
    exact ⟨b, hpeek, hb⟩

/-! ## Members of objects and elements of lists -/

theorem readColon_eq_ok_iff :
    readColon c = .ok ((), d) ↔
      c.skipBlanks.peek? = some (octet ':') ∧ d = c.skipBlanks.advance := by
  unfold readColon
  cases hpeek : c.skipBlanks.peek? with
  | none => simp [hpeek]
  | some b => by_cases hb : b = octet ':' <;> simp [hpeek, hb, eq_comm]

theorem takes_readColon_iff : Takes readColon octets () rest ↔ Mark ':' octets rest :=
  takes_iff_mark (by decide) fun _ _ => readColon_eq_ok_iff

/-- The octets go on with the opening quotation mark of a key; a comma stands before each key but
the first. -/
def NextKey (first : Bool) (octets inner : List UInt8) : Prop :=
  if first then Mark '"' octets inner else ∃ next, Mark ',' octets next ∧ Mark '"' next inner

theorem NextKey.unique {first : Bool} {inner' : List UInt8} (h : NextKey first octets inner)
    (h' : NextKey first octets inner') : inner = inner' := by
  cases first with
  | true => exact (Mark.unique h h' (by decide) (by decide)).2
  | false =>
    obtain ⟨next, hnext, hkey⟩ := h
    obtain ⟨next', hnext', hkey'⟩ := h'
    obtain rfl := (hnext.unique hnext' (by decide) (by decide)).2
    exact (hkey.unique hkey' (by decide) (by decide)).2

/-- Where a key follows, the object does not end. -/
theorem not_mark_of_nextKey {first : Bool} (h : NextKey first octets inner) :
    ¬ Mark '\x7d' octets rest := by
  intro hclose
  cases first with
  | true => exact absurd (Mark.unique h hclose (by decide) (by decide)).1 (by decide)
  | false =>
    obtain ⟨next, hnext, -⟩ := h
    exact absurd (hnext.unique hclose (by decide) (by decide)).1 (by decide)

theorem nextMember_of_mark (h : Mark '\x7d' c.rest rest) (first : Bool) :
    ∃ d, nextMember first c = .ok (false, d) ∧ d.rest = octet '\x7d' :: rest := by
  refine ⟨c.skipBlanks, ?_, rest_skipBlanks_of_mark (by decide) h⟩
  simp only [nextMember, peek?_of_mark (by decide) h, if_true]

theorem nextMember_of_nextKey {first : Bool} (h : NextKey first c.rest inner) :
    ∃ d, nextMember first c = .ok (true, d) ∧ d.rest = octet '"' :: inner := by
  have hquote : octet '"' ≠ octet '\x7d' := by decide
  have hcomma : octet ',' ≠ octet '\x7d' := by decide
  -- The first key stands at once, the others behind a comma.
  cases first with
  | true =>
    have hkey : Mark '"' c.rest inner := h
    refine ⟨c.skipBlanks, ?_, rest_skipBlanks_of_mark (by decide) hkey⟩
    simp only [nextMember, peek?_of_mark (by decide) hkey, hquote, if_false, if_true]
  | false =>
    obtain ⟨next, hnext, hkey⟩ := h
    have hpeek := peek?_of_mark (by decide) hnext
    rw [← rest_advance_of_mark (by decide) hnext] at hkey
    have hpeekKey := peek?_of_mark (by decide) hkey
    refine ⟨c.skipBlanks.advance.skipBlanks, ?_, rest_skipBlanks_of_mark (by decide) hkey⟩
    simp only [nextMember, hpeek, hcomma, if_false, if_true, hpeekKey, Bool.false_eq_true]

/-- A next member is the closing brace or a key. -/
theorem of_nextMember {first found : Bool} (h : nextMember first c = .ok (found, d)) :
    (found = false ∧ ∃ rest, Mark '\x7d' c.rest rest ∧ d.rest = octet '\x7d' :: rest) ∨
      (found = true ∧ ∃ inner, NextKey first c.rest inner ∧ d.rest = octet '"' :: inner) := by
  unfold nextMember at h
  dsimp only at h
  split at h
  · cases h
  · next b hpeek =>
    obtain ⟨behind, hbehind⟩ := List.head?_eq_some_iff.1 hpeek
    split at h
    · next hb =>
      obtain ⟨rfl, rfl⟩ := Prod.mk.inj (Except.ok.inj h)
      subst hb
      exact .inl ⟨rfl, behind, (mark_iff (by decide)).2 hbehind, hbehind⟩
    · split at h
      · next hfirst =>
        split at h
        · next hb =>
          obtain ⟨rfl, rfl⟩ := Prod.mk.inj (Except.ok.inj h)
          subst hb hfirst
          exact .inr ⟨rfl, behind, (mark_iff (by decide)).2 hbehind, hbehind⟩
        · cases h
      · next hfirst =>
        split at h
        · next hb =>
          subst hb
          split at h
          · cases h
          · next key hkey =>
            split at h
            · next hquote =>
              obtain ⟨rfl, rfl⟩ := Prod.mk.inj (Except.ok.inj h)
              subst hquote
              obtain ⟨inner, hinner⟩ := List.head?_eq_some_iff.1 hkey
              refine .inr ⟨rfl, inner, ?_, hinner⟩
              rw [NextKey, if_neg hfirst]
              exact ⟨_, mark_of_peek? (by decide) hpeek, (mark_iff (by decide)).2 hinner⟩
            · split at h <;> cases h
        · cases h

/-- The octets go on with an element of a list; a comma stands before each element but the first. -/
def NextItem (first : Bool) (octets next : List UInt8) : Prop :=
  if first then next = octets else Mark ',' octets next

theorem nextElement_of_nextItem {first : Bool} {next : List UInt8} {b : UInt8}
    (h : NextItem first c.rest next) (hb : (next.dropWhile isSeparator).head? = some b)
    (hend : b ≠ octet ']') :
    ∃ c' : Cursor, nextElement first c = .ok (true, c'.skipBlanks) ∧ c'.rest = next := by
  have hcomma : octet ',' ≠ octet ']' := by decide
  cases first with
  | true =>
    obtain rfl : next = c.rest := h
    have hpeek : c.skipBlanks.peek? = some b := hb
    refine ⟨c, ?_, rfl⟩
    simp only [nextElement, hpeek, hend, if_false, if_true]
  | false =>
    have hmark : Mark ',' c.rest next := h
    have hpeek := peek?_of_mark (by decide) hmark
    have hbehind := rest_advance_of_mark (by decide) hmark
    have hpeekNext : c.skipBlanks.advance.skipBlanks.peek? = some b := by
      rw [peek?, rest_skipBlanks, hbehind, hb]
    refine ⟨c.skipBlanks.advance, ?_, hbehind⟩
    simp only [nextElement, hpeek, hcomma, if_false, if_true, hpeekNext, hend, Bool.false_eq_true]

theorem of_nextElement {first : Bool} (h : nextElement first c = .ok (true, d)) :
    ∃ c' : Cursor, d = c'.skipBlanks ∧ NextItem first c.rest c'.rest := by
  unfold nextElement at h
  dsimp only at h
  split at h
  · cases h
  · next b hpeek =>
    split at h
    · cases h
    · split at h
      · next hfirst =>
        obtain ⟨-, rfl⟩ := Prod.mk.inj (Except.ok.inj h)
        exact ⟨c, rfl, by rw [NextItem, if_pos hfirst]⟩
      · next hfirst =>
        split at h
        · next hb =>
          subst hb
          split at h
          · cases h
          · split at h
            · cases h
            · obtain ⟨-, rfl⟩ := Prod.mk.inj (Except.ok.inj h)
              refine ⟨c.skipBlanks.advance, rfl, ?_⟩
              rw [NextItem, if_neg hfirst]
              exact mark_of_peek? (by decide) hpeek
        · cases h

/-! ## Whole texts -/

theorem readEnd_eq_ok_iff : (∃ d, readEnd c = .ok ((), d)) ↔ AllSeparators c.rest := by
  rw [readEnd, AllSeparators, ← List.dropWhile_eq_nil_iff, ← rest_skipBlanks]
  split <;> simp_all

/-- A whole text is an item with nothing but blanks behind it. -/
theorem readWhole_eq_ok_iff {read : Reader α} {a : α} :
    readWhole read octets = .ok a ↔
      ∃ d, read ⟨octets, ⟨1, 0⟩⟩ = .ok (a, d) ∧ AllSeparators d.rest := by
  unfold readWhole
  cases read ⟨octets, ⟨1, 0⟩⟩ with
  | error e => exact ⟨nofun, nofun⟩
  | ok taken =>
    obtain ⟨taken, c⟩ := taken
    constructor
    · intro h
      cases hend : readEnd c with
      | error e =>
        simp only [bind, Except.bind, hend] at h
        cases h
      | ok passed =>
        simp only [bind, Except.bind, hend] at h
        cases h
        exact ⟨c, rfl, readEnd_eq_ok_iff.1 ⟨passed.2, hend⟩⟩
    · rintro ⟨d, h, hseparators⟩
      obtain ⟨rfl, rfl⟩ := Prod.mk.inj (Except.ok.inj h)
      obtain ⟨d, hend⟩ := readEnd_eq_ok_iff.2 hseparators
      simp only [bind, Except.bind, hend]
      rfl

end DaemonRpc.Json

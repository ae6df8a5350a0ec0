import DaemonRpc.Proofs.Json.Items
import Mathlib.Data.List.Nodup

/-!
# Records in a text

What a record is read from, said by octets. An object holds members, each of which changes the
record or is passed over (`Record.IsMember`), and changes no field twice; a list holds the items of
the fields in order (`Record.Elements`). `Record.parse_eq_ok_iff` says that the texts of these
forms are read, and no others.
-/

namespace DaemonRpc.Json

open Cursor

variable {α β σ μ ν : Type} {octets inner behind rest : List UInt8} {c d : Cursor}

/-! ## Changed items -/

theorem steady_map {decoder : Decoder α} (h : Steady decoder.ofText) (f : α → β) :
    Steady (decoder.map f).ofText := by
  intro c d hrest octets hend
  have hagree := h hrest hend
  unfold Decoder.map
  dsimp only
  generalize decoder.ofText c = x, decoder.ofText d = y at hagree ⊢
  cases hagree with
  | error e e' => exact .error e e'
  | ok a hrest hend => exact .ok (f a) hrest hend

theorem takes_map_iff {decoder : Decoder α} (h : Steady decoder.ofText) {f : α → β} {b : β} :
    Takes (decoder.map f).ofText octets b rest ↔
      ∃ a, Takes decoder.ofText octets a rest ∧ f a = b := by
  constructor
  · intro ht
    obtain ⟨d, hread, rfl⟩ := ht ⟨octets, ⟨1, 0⟩⟩ rfl
    unfold Decoder.map at hread
    dsimp only at hread
    cases hitem : decoder.ofText ⟨octets, ⟨1, 0⟩⟩ with
    | error e =>
      rw [hitem] at hread
      cases hread
    | ok taken =>
      rw [hitem] at hread
      obtain ⟨rfl, rfl⟩ := Prod.mk.inj (Except.ok.inj hread)
      exact ⟨taken.1, h.takes hitem, rfl⟩
  · rintro ⟨a, ha, rfl⟩ c hc
    obtain ⟨d, hread, hd⟩ := ha c hc
    refine ⟨d, ?_, hd⟩
    unfold Decoder.map
    dsimp only
    rw [hread]
    rfl

/-- A field that a list must have, whose items do not begin like the end of the list. -/
structure Field.IsListed (f : Field σ) : Prop where
  needed : f.neededInList = true
  steady : Steady f.decoder.ofText
  /-- Blanks in front do not matter. -/
  skipBlanks : ∀ c : Cursor, f.decoder.ofText c.skipBlanks = f.decoder.ofText c
  starts : ∀ {c d : Cursor} {set : σ → σ}, f.decoder.ofText c = .ok (set, d) →
    ∃ b, c.skipBlanks.peek? = some b ∧ b ≠ octet ']'

theorem Field.isListed_optional {decoder : Decoder α} (h : decoder.IsScalar) (names : List String)
    (set : Option α → σ → σ) : (Field.optional names decoder set).IsListed where
  needed := rfl
  steady := steady_map (steady_optional h.steady) set
  skipBlanks := by
    intro c
    unfold Field.optional Decoder.map Decoder.optional
    dsimp only
    rw [skipBlanks_skipBlanks]
  starts := by
    intro c d change hread
    obtain ⟨given, hgiven, -⟩ := (takes_map_iff (steady_optional h.steady)).1
      ((steady_map (steady_optional h.steady) set).takes hread)
    obtain ⟨d', hitem, -⟩ := hgiven c rfl
    exact starts_optional h hitem

/-! ## Members -/

/-- Members up to the closing brace and with it, each written as `IsMember` says. -/
inductive Members (IsMember : List UInt8 → μ → List UInt8 → Prop) :
    Bool → List UInt8 → List μ → List UInt8 → Prop where
  | close {first : Bool} {octets rest : List UInt8} (h : Mark '\x7d' octets rest) :
      Members IsMember first octets [] rest
  | member {first : Bool} {octets inner behind rest : List UInt8} {m : μ} {more : List μ}
      (hkey : NextKey first octets inner) (h : IsMember inner m behind)
      (hmore : Members IsMember false behind more rest) :
      Members IsMember first octets (m :: more) rest

/-- Members that can be written in one way, each told by another, can be written in the other. -/
theorem Members.exists_map {IsMember : List UInt8 → μ → List UInt8 → Prop}
    {IsOther : List UInt8 → ν → List UInt8 → Prop} {f : ν → μ}
    {first : Bool} {members : List μ} (h : Members IsMember first octets members rest)
    (hother : ∀ octets m rest, IsMember octets m rest → ∃ n, IsOther octets n rest ∧ f n = m) :
    ∃ others, Members IsOther first octets others rest ∧ others.map f = members := by
  induction h with
  | close h => exact ⟨[], .close h, rfl⟩
  | member hkey h _ ih =>
    obtain ⟨n, hn, hm⟩ := hother _ _ _ h
    obtain ⟨others, hothers, hmore⟩ := ih
    exact ⟨n :: others, .member hkey hn hothers, by rw [List.map_cons, hm, hmore]⟩

/-- If each member of one kind is a member of another, so are they all. -/
theorem Members.map {IsMember : List UInt8 → μ → List UInt8 → Prop}
    {IsOther : List UInt8 → ν → List UInt8 → Prop} {f : μ → ν}
    {first : Bool} {members : List μ} (h : Members IsMember first octets members rest)
    (hother : ∀ octets m rest, IsMember octets m rest → IsOther octets (f m) rest) :
    Members IsOther first octets (members.map f) rest := by
  induction h with
  | close h => exact .close h
  | member hkey h _ ih => exact .member hkey (hother _ _ _ h) ih

/-- Octets go on with the same members in all readings, if they do with the same one. -/
theorem Members.unique {IsMember : List UInt8 → μ → List UInt8 → Prop}
    (hunique : ∀ ⦃octets m rest⦄, IsMember octets m rest →
      ∀ ⦃m' rest'⦄, IsMember octets m' rest' → m = m' ∧ rest = rest')
    {first : Bool} {members members' : List μ} {rest' : List UInt8}
    (h : Members IsMember first octets members rest)
    (h' : Members IsMember first octets members' rest') : members = members' := by
  induction h generalizing members' rest' with
  | close hclose =>
    cases h' with
    | close _ => rfl
    | member hkey _ _ => exact absurd hclose (not_mark_of_nextKey hkey)
  | member hkey hm _ ih =>
    cases h' with
    | close hclose => exact absurd hclose (not_mark_of_nextKey hkey)
    | member hkey' hm' hmore' =>
      obtain rfl := hkey.unique hkey'
      obtain ⟨rfl, rfl⟩ := hunique hm hm'
      rw [ih hmore']

theorem Mark.suffix {char : Char} (h : Mark char octets rest) : rest <:+ octets := by
  obtain ⟨blanks, -, rfl⟩ := h
  exact ⟨blanks ++ [octet char], by simp⟩

theorem Mark.length_lt {char : Char} (h : Mark char octets rest) :
    rest.length < octets.length := by
  obtain ⟨blanks, -, rfl⟩ := h
  simp only [List.length_append, List.length_cons]
  omega

theorem NextKey.length_lt {first : Bool} (h : NextKey first octets inner) :
    inner.length < octets.length := by
  cases first with
  | true => exact (show Mark '"' octets inner from h).length_lt
  | false =>
    obtain ⟨next, hnext, hkey⟩ := h
    exact hkey.length_lt.trans hnext.length_lt

/-! ## Records by name -/

/-- What a member does to a record: its field, by name, and the change that its item makes. A
member of an unknown name does nothing. -/
abbrev Change (σ : Type) : Type := Option (String × (σ → σ))

/-- The record after a change. -/
def Change.apply (record : σ) : Change σ → σ
  | none => record
  | some (_, set) => set record

/-- The names of the fields that are changed, in order. -/
def changedNames (changes : List (Change σ)) : List String := changes.filterMap (·.map Prod.fst)

namespace Record

variable {r : Record σ} {record record' : σ} {seen seen' : List String} {first : Bool}
  {changes : List (Change σ)}

/-- Behind the opening quotation mark of its key stands a member that makes this change to the
record. -/
inductive IsMember (r : Record σ) (octets : List UInt8) : Change σ → List UInt8 → Prop where
  /-- Nobody asked for this member. -/
  | unknown {key : String} {after value rest : List UInt8}
      (hkey : Takes readString octets key after) (hfield : r.field? key = none)
      (hcolon : Mark ':' after value) (hvalue : Takes skipValue value () rest) :
      IsMember r octets none rest
  | known {key : String} {f : Field σ} {set : σ → σ} {after value rest : List UInt8}
      (hkey : Takes readString octets key after) (hfield : r.field? key = some f)
      (hcolon : Mark ':' after value) (hvalue : Takes f.decoder.ofText value set rest) :
      IsMember r octets (some (f.name, set)) rest

/-- The fields can be read, wherever their items stand. -/
def IsSteady (r : Record σ) : Prop := ∀ f ∈ r.fields, Steady f.decoder.ofText

theorem IsSteady.field? (h : r.IsSteady) {key : String} {f : Field σ}
    (hf : r.field? key = some f) : Steady f.decoder.ofText :=
  h f (List.mem_of_find?_eq_some hf)

theorem IsMember.suffix (h : r.IsSteady) {change : Change σ}
    (hm : r.IsMember octets change rest) : rest <:+ octets := by
  cases hm with
  | unknown hkey _ hcolon hvalue =>
    exact (steady_skipValue.suffix_of_takes hvalue).trans
      ((hcolon.suffix).trans (steady_readString.suffix_of_takes hkey))
  | known hkey hfield hcolon hvalue =>
    exact ((h.field? hfield).suffix_of_takes hvalue).trans
      ((hcolon.suffix).trans (steady_readString.suffix_of_takes hkey))

theorem IsMember.unique {change change' : Change σ} {rest' : List UInt8}
    (h : r.IsMember octets change rest) (h' : r.IsMember octets change' rest') :
    change = change' ∧ rest = rest' := by
  cases h with
  | unknown hkey hfield hcolon hvalue =>
    cases h' with
    | unknown hkey' _ hcolon' hvalue' =>
      obtain ⟨-, rfl⟩ := hkey.unique hkey'
      obtain rfl := (hcolon.unique hcolon' (by decide) (by decide)).2
      exact ⟨rfl, (hvalue.unique hvalue').2⟩
    | known hkey' hfield' _ _ =>
      obtain ⟨rfl, -⟩ := hkey.unique hkey'
      cases hfield.symm.trans hfield'
  | known hkey hfield hcolon hvalue =>
    cases h' with
    | unknown hkey' hfield' _ _ =>
      obtain ⟨rfl, -⟩ := hkey.unique hkey'
      cases hfield.symm.trans hfield'
    | known hkey' hfield' hcolon' hvalue' =>
      obtain ⟨rfl, rfl⟩ := hkey.unique hkey'
      obtain rfl := (hcolon.unique hcolon' (by decide) (by decide)).2
      obtain rfl := Option.some.inj (hfield.symm.trans hfield')
      obtain ⟨rfl, hrest⟩ := hvalue.unique hvalue'
      exact ⟨rfl, hrest⟩

/-- What is read by name stands there as members, of which none is repeated. -/
theorem members_of_readByName (h : r.IsSteady) {fuel : Nat}
    (hread : r.readByName fuel first seen record c = .ok ((record', seen'), d)) :
    ∃ changes rest, Members r.IsMember first c.rest changes rest ∧
      d.rest = octet '\x7d' :: rest ∧ record' = changes.foldl Change.apply record ∧
      seen' = (changedNames changes).reverse ++ seen ∧ (seen.Nodup → seen'.Nodup) := by
  -- The names seen so far are carried along; each field that is read was not among them.
  induction fuel generalizing first seen record c with
  | zero => cases hread
  | succ fuel ih =>
    rw [readByName] at hread
    split at hread
    · cases hread
    · next c' hnext =>
      cases hread
      obtain ⟨-, rest, hmark, hrest⟩ | ⟨hfound, -⟩ := of_nextMember hnext
      · exact ⟨[], rest, .close hmark, hrest, rfl, rfl, id⟩
      · cases hfound
    · next c' hnext =>
      obtain ⟨hfound, -⟩ | ⟨-, inner, hkey, hinner⟩ := of_nextMember hnext
      · cases hfound
      obtain ⟨⟨key, c₁⟩, hstring, hread⟩ := exists_of_bind hread
      have htakesKey := steady_readString.takes hstring
      rw [rest_advance, hinner, List.tail_cons] at htakesKey
      dsimp only at hread
      split at hread
      · next hfield =>
        obtain ⟨⟨_, c₂⟩, hcolon, hread⟩ := exists_of_bind hread
        obtain ⟨⟨_, c₃⟩, hvalue, hread⟩ := exists_of_bind hread
        have hmember : r.IsMember inner none c₃.rest :=
          .unknown htakesKey hfield (takes_readColon_iff.1 (steady_readColon.takes hcolon))
            (steady_skipValue.takes hvalue)
        obtain ⟨changes, rest, hmembers, hd, hrecord, hseen, hnodup⟩ := ih hread
        exact ⟨none :: changes, rest, .member hkey hmember hmembers, hd, hrecord, hseen, hnodup⟩
      · next f hfield =>
        split at hread
        · cases hread
        next hnew =>
        obtain ⟨⟨_, c₂⟩, hcolon, hread⟩ := exists_of_bind hread
        obtain ⟨⟨set, c₃⟩, hvalue, hread⟩ := exists_of_bind hread
        have hmember : r.IsMember inner (some (f.name, set)) c₃.rest :=
          .known htakesKey hfield (takes_readColon_iff.1 (steady_readColon.takes hcolon))
            ((h.field? hfield).takes hvalue)
        obtain ⟨changes, rest, hmembers, hd, hrecord, hseen, hnodup⟩ := ih hread
        refine ⟨some (f.name, set) :: changes, rest, .member hkey hmember hmembers, hd, hrecord,
          ?_, fun hold => hnodup (List.nodup_cons.2 ⟨?_, hold⟩)⟩
        · rw [hseen]
          simp [changedNames]
        · simpa using hnew

/-- Members of which none is repeated are read by name. -/
theorem readByName_of_members (h : r.IsSteady)
    (hmembers : Members r.IsMember first octets changes rest) :
    ∀ (c : Cursor) (fuel : Nat) (seen : List String) (record : σ), c.rest = octets →
      octets.length < fuel → ((changedNames changes).reverse ++ seen).Nodup →
      ∃ d, r.readByName fuel first seen record c =
        .ok ((changes.foldl Change.apply record, (changedNames changes).reverse ++ seen), d) ∧
          d.rest = octet '\x7d' :: rest := by
  induction hmembers with
  | @close first _ _ hmark =>
    intro c fuel seen record hc hfuel _
    subst hc
    obtain ⟨fuel, rfl⟩ := Nat.exists_eq_add_one_of_ne_zero (Nat.ne_zero_of_lt hfuel)
    obtain ⟨d, hnext, hd⟩ := nextMember_of_mark hmark first
    refine ⟨d, ?_, hd⟩
    rw [readByName, hnext]
    rfl
  | @member first octets inner behind rest change more hkey hmember _ ih =>
    intro c fuel seen record hc hfuel hnodup
    subst hc
    obtain ⟨fuel, rfl⟩ := Nat.exists_eq_add_one_of_ne_zero (Nat.ne_zero_of_lt hfuel)
    -- Each member takes an octet at least, so the fuel lasts.
    have hshort : behind.length < fuel := by
      have hlength := (hmember.suffix h).length_le
      have hlt := hkey.length_lt
      omega
    obtain ⟨c', hnext, hc'⟩ := nextMember_of_nextKey hkey
    have hinner : c'.advance.rest = inner := by rw [rest_advance, hc', List.tail_cons]
    cases hmember with
    | unknown htakesKey hfield hcolon hvalue =>
      obtain ⟨c₁, hstring, hc₁⟩ := htakesKey _ hinner
      obtain ⟨c₂, hpassed, hc₂⟩ := takes_readColon_iff.2 hcolon _ hc₁
      obtain ⟨c₃, hskipped, hc₃⟩ := hvalue _ hc₂
      obtain ⟨d, hread, hd⟩ := ih c₃ fuel seen record hc₃ hshort hnodup
      refine ⟨d, ?_, hd⟩
      rw [readByName, hnext]
      dsimp only
      rw [hstring]
      dsimp only [bind, Except.bind]
      rw [hfield]
      dsimp only
      rw [hpassed]
      dsimp only
      rw [hskipped]
      exact hread
    | @known key f set _ _ _ htakesKey hfield hcolon hvalue =>
      obtain ⟨c₁, hstring, hc₁⟩ := htakesKey _ hinner
      obtain ⟨c₂, hpassed, hc₂⟩ := takes_readColon_iff.2 hcolon _ hc₁
      obtain ⟨c₃, htaken, hc₃⟩ := hvalue _ hc₂
      have hnames : (changedNames (some (f.name, set) :: more)).reverse ++ seen =
          (changedNames more).reverse ++ f.name :: seen := by
        simp [changedNames]
      rw [hnames] at hnodup ⊢
      have hnew : seen.contains f.name = false := by
        have := (List.nodup_cons.1 (List.nodup_append.1 hnodup).2.1).1
        simpa using this
      obtain ⟨d, hread, hd⟩ := ih c₃ fuel (f.name :: seen) (set record) hc₃ hshort hnodup
      refine ⟨d, ?_, hd⟩
      rw [readByName, hnext]
      dsimp only
      rw [hstring]
      dsimp only [bind, Except.bind]
      rw [hfield]
      dsimp only
      rw [hnew, hpassed]
      dsimp only
      rw [htaken]
      exact hread

/-! ## Records in order -/

/-- The items of these fields in order, each with the change that it makes. -/
inductive Elements :
    Bool → List (Field σ) → List UInt8 → List (σ → σ) → List UInt8 → Prop where
  | nil {first : Bool} {octets : List UInt8} : Elements first [] octets [] octets
  | element {first : Bool} {f : Field σ} {fields : List (Field σ)} {set : σ → σ}
      {sets : List (σ → σ)} {octets item behind rest : List UInt8}
      (hnext : NextItem first octets item) (h : Takes f.decoder.ofText item set behind)
      (hmore : Elements false fields behind sets rest) :
      Elements first (f :: fields) octets (set :: sets) rest

/-- What is read in order stands there as elements. -/
theorem elements_of_readInOrder {fields : List (Field σ)} (h : ∀ f ∈ fields, f.IsListed)
    {index : Nat} (hread : r.readInOrder fields index record c = .ok (record', d)) :
    ∃ sets, Elements (index == 0) fields c.rest sets d.rest ∧
      record' = sets.foldl (fun record set => set record) record := by
  induction fields generalizing index record c with
  | nil =>
    cases hread
    exact ⟨[], .nil, rfl⟩
  | cons f fields ih =>
    have hf := h f List.mem_cons_self
    rw [readInOrder] at hread
    split at hread
    · cases hread
    · rw [if_pos hf.needed] at hread
      cases hread
    · next c₁ hnext =>
      obtain ⟨c₂, rfl, hitem⟩ := of_nextElement hnext
      rw [hf.skipBlanks] at hread
      split at hread
      · cases hread
      · next set c₃ hset =>
        obtain ⟨sets, hmore, hrecord⟩ := ih (fun g hg => h g (List.mem_cons_of_mem _ hg)) hread
        exact ⟨set :: sets, .element hitem (hf.steady.takes hset) hmore, hrecord⟩

/-- Elements are read in order. -/
theorem readInOrder_of_elements {fields : List (Field σ)} {sets : List (σ → σ)}
    (helements : Elements first fields octets sets rest) (h : ∀ f ∈ fields, f.IsListed) :
    ∀ (c : Cursor) (index : Nat) (record : σ), c.rest = octets → (index == 0) = first →
      ∃ d, r.readInOrder fields index record c =
        .ok (sets.foldl (fun record set => set record) record, d) ∧ d.rest = rest := by
  induction helements with
  | nil => exact fun c _ record hc _ => ⟨c, rfl, hc⟩
  | @element first f fields set sets octets item behind rest hnext htakes _ ih =>
    intro c index record hc hindex
    subst hc
    have hf := h f List.mem_cons_self
    -- The reader looks for the end of the list before it reads the item.
    obtain ⟨b, hb, hend⟩ : ∃ b, (item.dropWhile isSeparator).head? = some b ∧ b ≠ octet ']' := by
      obtain ⟨d, hread, -⟩ := htakes ⟨item, ⟨1, 0⟩⟩ rfl
      exact hf.starts hread
    obtain ⟨c₁, hfound, hc₁⟩ := nextElement_of_nextItem hnext hb hend
    obtain ⟨c₂, hset, hc₂⟩ := htakes c₁ hc₁
    obtain ⟨d, hread, hd⟩ := ih (fun g hg => h g (List.mem_cons_of_mem _ hg)) c₂ (index + 1)
      (set record) hc₂ rfl
    refine ⟨d, ?_, hd⟩
    rw [readInOrder, hindex, hfound]
    dsimp only
    rw [hf.skipBlanks, hset]
    exact hread

theorem steady_endList : Steady endList := by
  intro c d hrest octets hend
  have hblanks : c.skipBlanks.rest = d.skipBlanks.rest := skipWhile_congr _ hrest
  unfold endList
  dsimp only
  rw [peek?_congr hblanks]
  split
  · exact .error _ _
  · split
    · exact .ok () (advance_congr hblanks) (advance_suffix (skipWhile_suffix _ hend))
    · split <;> exact .error _ _

theorem endList_eq_ok_iff :
    endList c = .ok ((), d) ↔ c.skipBlanks.peek? = some (octet ']') ∧ d = c.skipBlanks.advance := by
  unfold endList
  cases hpeek : c.skipBlanks.peek? with
  | none => simp [hpeek]
  | some b =>
    by_cases hb : b = octet ']'
    · simp [hpeek, hb, eq_comm]
    · simp only [hpeek, hb, if_false, Option.some.injEq, false_and, iff_false]
      split <;> nofun

theorem takes_endList_iff : Takes endList octets () rest ↔ Mark ']' octets rest :=
  takes_iff_mark (by decide) fun _ _ => endList_eq_ok_iff

/-! ## Whole texts -/

theorem missing?_eq_none_iff :
    r.missing? seen = none ↔ ∀ f ∈ r.fields, f.neededInObject = true → f.name ∈ seen := by
  simp [missing?, List.find?_eq_none]

/-- The octets are the text of a record: an object with no field twice and all that it must have,
or a list of the items of its fields, with nothing but blanks around. -/
inductive IsText (r : Record σ) (octets : List UInt8) : σ → Prop where
  | object {changes : List (Change σ)} {inner rest : List UInt8} (hopen : Mark '\x7b' octets inner)
      (hmembers : Members r.IsMember true inner changes rest)
      (hnodup : (changedNames changes).Nodup)
      (hneeded : ∀ f ∈ r.fields, f.neededInObject = true → f.name ∈ changedNames changes)
      (hend : AllSeparators rest) :
      r.IsText octets (changes.foldl Change.apply r.initial)
  | list {sets : List (σ → σ)} {inner behind rest : List UInt8} (hopen : Mark '[' octets inner)
      (helements : Elements true r.fields inner sets behind) (hclose : Mark ']' behind rest)
      (hend : AllSeparators rest) :
      r.IsText octets (sets.foldl (fun record set => set record) r.initial)

/-- What is read as a record is the text of it. -/
theorem isText_of_parse (h : ∀ f ∈ r.fields, f.IsListed)
    (hparse : r.decoder.parse octets = .ok record) : r.IsText octets record := by
  obtain ⟨d, hread, hend⟩ := readWhole_eq_ok_iff.1 hparse
  unfold decoder at hread
  dsimp only [readItem] at hread
  split at hread
  · cases hread
  next b hpeek =>
  have hopen : ∀ {char : Char}, isSeparator (octet char) = false → b = octet char →
      Mark char octets (⟨octets, ⟨1, 0⟩⟩ : Cursor).skipBlanks.advance.rest := by
    rintro char hchar rfl
    exact mark_of_peek? (c := ⟨octets, ⟨1, 0⟩⟩) hchar hpeek
  split at hread
  · next hb =>
    obtain ⟨⟨taken, c₁⟩, hitems, hread⟩ := exists_of_bind hread
    obtain ⟨⟨_, c₂⟩, hclose, hread⟩ := exists_of_bind hread
    cases hread
    obtain ⟨sets, helements, rfl⟩ := elements_of_readInOrder h hitems
    exact .list (hopen (by decide) hb) helements
      (takes_endList_iff.1 (steady_endList.takes hclose)) hend
  · split at hread
    · next hb =>
      obtain ⟨⟨⟨taken, seen⟩, c₁⟩, hnamed, hread⟩ := exists_of_bind hread
      dsimp only at hread
      split at hread
      · cases hread
      next hneeded =>
      cases hread
      obtain ⟨changes, rest, hmembers, hrest, rfl, rfl, hnodup⟩ :=
        members_of_readByName (fun f hf => (h f hf).steady) hnamed
      -- The closing brace, which the members left, is passed now.
      rw [rest_advance, hrest, List.tail_cons] at hend
      rw [List.append_nil] at hneeded hnodup
      refine .object (hopen (by decide) hb) hmembers (List.nodup_reverse.1 (hnodup .nil)) ?_ hend
      simpa using missing?_eq_none_iff.1 hneeded
    · cases hread

/-- The text of a record is read as this record. -/
theorem parse_of_isText (h : ∀ f ∈ r.fields, f.IsListed) (htext : r.IsText octets record) :
    r.decoder.parse octets = .ok record := by
  rw [Decoder.parse, readWhole_eq_ok_iff]
  generalize hstart : (⟨octets, ⟨1, 0⟩⟩ : Cursor) = c
  obtain rfl : octets = c.rest := by rw [← hstart]
  clear hstart
  cases htext with
  | @object changes inner rest hopen hmembers hnodup hneeded hend =>
    have hpeek := peek?_of_mark (by decide) hopen
    have hinner := rest_advance_of_mark (by decide) hopen
    have hfuel : inner.length < c.skipBlanks.rest.length + 1 := by
      rw [rest_skipBlanks_of_mark (by decide) hopen, List.length_cons]
      omega
    obtain ⟨d, hread, hd⟩ := readByName_of_members (fun f hf => (h f hf).steady) hmembers _ _ []
      r.initial hinner hfuel (by rw [List.append_nil]; exact List.nodup_reverse.2 hnodup)
    have hmissing : r.missing? ((changedNames changes).reverse ++ []) = none :=
      missing?_eq_none_iff.2 (by simpa using hneeded)
    refine ⟨d.advance, ?_, by rw [rest_advance, hd, List.tail_cons]; exact hend⟩
    unfold decoder
    dsimp only [readItem]
    rw [hpeek]
    dsimp only
    rw [if_neg (by decide), if_pos rfl, hread]
    dsimp only [bind, Except.bind]
    rw [hmissing]
    rfl
  | @list sets inner behind rest hopen helements hclose hend =>
    have hpeek := peek?_of_mark (by decide) hopen
    have hinner := rest_advance_of_mark (by decide) hopen
    obtain ⟨c₁, hread, hc₁⟩ := readInOrder_of_elements helements h _ 0 r.initial hinner rfl
    obtain ⟨c₂, hpassed, hc₂⟩ := takes_endList_iff.2 hclose _ hc₁
    refine ⟨c₂, ?_, by rw [hc₂]; exact hend⟩
    unfold decoder
    dsimp only [readItem]
    rw [hpeek]
    dsimp only
    rw [if_pos rfl, hread]
    dsimp only [bind, Except.bind]
    rw [hpassed]
    rfl

/-- A text is read as a record exactly if it is the text of this record. -/
theorem parse_eq_ok_iff (h : ∀ f ∈ r.fields, f.IsListed) :
    r.decoder.parse octets = .ok record ↔ r.IsText octets record :=
  ⟨isText_of_parse h, parse_of_isText h⟩

end Record

end DaemonRpc.Json

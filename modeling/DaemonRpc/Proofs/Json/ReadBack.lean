import DaemonRpc.Proofs.Json.Tokens

/-!
# What is written is read back

The compact text of a value is read as this value, if its containers nest no deeper than the reader
goes and its numbers are whole (`Value.IsPlain`). Floating numbers stay out: the reader scales their
digits in binary64 arithmetic, which may miss the number whose shortest digits they are.

A value is read back wherever it stands, unless what follows could belong to it (`ReadsBack`). Its
first character says how the reader goes on behind it (`GoesOnWith`). Lists and objects are read by
one loop each, and both loops go past their items in the same way (`ReadsItems`).

* `IsPlain.readsBack`: values, by induction over their containers.
* `IsPlain.parse_write`, `IsPlain.parseText_render`: whole texts.
-/

namespace DaemonRpc.Json

open Cursor Utf8

variable {rest : List UInt8} {c : Cursor}

/-! ## Scalars -/

/-- The reader reads back the value, from a text that begins neither with a blank nor like the end
of a list. -/
structure ReadsBack (read : Reader Value) (v : Value) : Prop where
  takes : ∀ {rest : List UInt8}, EndsNumber rest → Takes read (encode v.write ++ rest) v rest
  starts : ∃ b more, encode v.write = b :: more ∧ isSeparator b = false ∧ b ≠ octet ']'

/-- A value with whole numbers of 64 bits only, whose objects are in the order of their keys and
whose containers nest at most so deep. -/
inductive Value.IsPlain : Nat → Value → Prop where
  | null {depth : Nat} : IsPlain depth .null
  | bool {depth : Nat} (value : Bool) : IsPlain depth (.bool value)
  | integer {depth : Nat} {i : Int} (hlow : Int64.minValue.toInt ≤ i) (hhigh : i < UInt64.size) :
      IsPlain depth (.number (.integer i))
  | string {depth : Nat} (s : String) : IsPlain depth (.string s)
  | array {depth : Nat} {elements : List Value} (h : ∀ v ∈ elements, IsPlain depth v) :
      IsPlain (depth + 1) (.array elements)
  | object {depth : Nat} {members : List (String × Value)}
      (hsorted : members.Pairwise fun m m' => m.1 < m'.1)
      (h : ∀ m ∈ members, IsPlain depth m.2) : IsPlain (depth + 1) (.object members)

/-- Where no blank stands none is passed. -/
theorem ahead_of_rest {b : UInt8} (hc : c.rest = b :: rest) (hb : isSeparator b = false) :
    c.skipBlanks = c ∧ c.peek? = some b := by
  have htake : c.rest.takeWhile isSeparator = [] := by
    rw [hc, List.takeWhile_cons, hb]
    rfl
  have hdrop : c.rest.dropWhile isSeparator = c.rest := by
    rw [hc, List.dropWhile_cons, hb]
    rfl
  refine ⟨?_, congrArg List.head? hc⟩
  rw [skipBlanks, skipWhile, htake, hdrop]
  rfl

variable {inner : Option (Reader Value)}

/-- A value that begins with this character goes on like this behind it. -/
structure GoesOnWith (inner : Option (Reader Value)) (first : Char) (read : Reader Value) :
    Prop where
  starts : isSeparator (octet first) = false ∧ octet first ≠ octet ']'
  reads : ∀ {c : Cursor} {more : List UInt8}, c.rest = octet first :: more →
    readValueWith inner c = read c.advance

/-- So a value is read back, if what is written behind its first character is. -/
theorem GoesOnWith.readsBack {first : Char} {read : Reader Value} {text : List UInt8} {v : Value}
    (h : GoesOnWith inner first read) (hwrite : encode v.write = octet first :: text)
    (htext : ∀ {rest}, EndsNumber rest → Takes read (text ++ rest) v rest) :
    ReadsBack (readValueWith inner) v where
  takes := by
    intro rest hrest c hc
    rw [hwrite, List.cons_append] at hc
    have hbehind : c.advance.rest = text ++ rest := by
      rw [rest_advance, hc]
      rfl
    rw [h.reads hc]
    exact htext hrest c.advance hbehind
  starts := ⟨octet first, text, hwrite, h.starts⟩

/-- An item that is taken is passed on. -/
theorem Takes.map {α β : Type} {read : Reader α} {octets : List UInt8} {a : α} (f : α → β)
    (h : Takes read octets a rest) :
    Takes (fun c => read c >>= fun taken => .ok (f taken.1, taken.2)) octets (f a) rest := by
  intro c hc
  obtain ⟨d, hread, hd⟩ := h c hc
  refine ⟨d, ?_, hd⟩
  show (read c >>= fun taken => .ok (f taken.1, taken.2)) = Except.ok (f a, d)
  rw [hread]
  rfl

/-- A literal is read back, if its letters stand behind its first one. -/
theorem readsBack_literal {first : Char} {v : Value} (letters : List Char)
    (hwrite : encode v.write = octet first :: letters.map octet)
    (h : GoesOnWith inner first fun c =>
      readIdent letters c >>= fun passed => .ok (v, passed.2)) :
    ReadsBack (readValueWith inner) v := by
  have htakes : ∀ {rest}, Takes (readIdent letters) (letters.map octet ++ rest) () rest :=
    fun _ hc => readIdent_of_rest hc
  exact h.readsBack hwrite fun _ => htakes.map fun _ => v

theorem readsBack_null : ReadsBack (readValueWith inner) .null := by
  refine readsBack_literal ['u', 'l', 'l'] rfl ⟨by decide, ?_⟩
  -- With the first octet known, all tests of the reader compute.
  rintro ⟨_, _⟩ _ rfl
  rfl

theorem readsBack_bool (value : Bool) : ReadsBack (readValueWith inner) (.bool value) := by
  cases value with
  | true =>
    refine readsBack_literal ['r', 'u', 'e'] rfl ⟨by decide, ?_⟩
    rintro ⟨_, _⟩ _ rfl
    rfl
  | false =>
    refine readsBack_literal ['a', 'l', 's', 'e'] rfl ⟨by decide, ?_⟩
    rintro ⟨_, _⟩ _ rfl
    rfl

theorem encode_writeString (s : String) :
    encode (writeString s) =
      octet '"' :: (encode (s.toList.flatMap escapeChar) ++ [octet '"']) := by
  rw [writeString, List.cons_append, encode_cons, encode_append]
  rfl

theorem goesOnWith_string :
    GoesOnWith inner '"' fun c => readString c >>= fun taken => .ok (.string taken.1, taken.2) := by
  refine ⟨by decide, ?_⟩
  rintro ⟨_, _⟩ _ rfl
  rfl

theorem readsBack_string (s : String) : ReadsBack (readValueWith inner) (.string s) := by
  refine goesOnWith_string.readsBack (encode_writeString s) fun _ => ?_
  rw [List.append_assoc]
  exact (takes_readString s).map Value.string

/-- The digits of a number are written as their codes. -/
theorem encode_toDigits (n : Nat) :
    encode (Nat.toDigits 10 n) = (Nat.toDigits 10 n).map octet := by
  refine encode_of_ascii fun ch hch => ?_
  have hdigit := Nat.isDigit_of_mem_toDigits (by decide) (by decide) hch
  rw [Char.isDigit, Bool.and_eq_true, decide_eq_true_iff, decide_eq_true_iff] at hdigit
  exact Nat.lt_of_le_of_lt hdigit.2 (by decide)

theorem exists_first_digit (n : Nat) :
    ∃ b more, (Nat.toDigits 10 n).map octet = b :: more ∧ (digit? b).isSome = true := by
  match hfirst : Nat.toDigits 10 n with
  | [] => exact absurd hfirst Nat.toDigits_ne_nil
  | ch :: more =>
    have hdigit : ch.isDigit = true :=
      Nat.isDigit_of_mem_toDigits (by decide) (by decide) (hfirst ▸ List.mem_cons_self)
    refine ⟨octet ch, more.map octet, rfl, ?_⟩
    rw [digit?_octet hdigit, Option.isSome_some]

theorem readsBack_natural {n : Nat} (h : n < UInt64.size) :
    ReadsBack (readValueWith inner) (.number (.integer n)) := by
  obtain ⟨b, more, hfirst, hdigit⟩ := exists_first_digit n
  have hother : ∀ char, digit? (octet char) = none → b ≠ octet char := by
    rintro char hnone rfl
    rw [hnone] at hdigit
    cases hdigit
  have hwrite : encode (Value.number (.integer n)).write = b :: more := by
    rw [← hfirst, ← encode_toDigits, ← Nat.toList_repr]
    rfl
  have hseparator : isSeparator b = false := by
    simp [isSeparator, hother ' ' (by decide), hother '\n' (by decide), hother '\t' (by decide),
      hother '\r' (by decide)]
  refine ⟨?_, b, more, hwrite, hseparator, hother ']' (by decide)⟩
  intro rest hrest c hc
  rw [hwrite] at hc
  obtain ⟨hblank, hpeek⟩ := ahead_of_rest hc hseparator
  have hat : c.atDigit = true := (atDigit_of_peek? hpeek).trans hdigit
  obtain ⟨d, hread, hd⟩ := takes_readNumber h hrest c (by rw [hc, hfirst])
  refine ⟨d, ?_, hd⟩
  unfold readValueWith
  dsimp only
  rw [hblank, hpeek]
  dsimp only
  rw [if_neg (hother 'n' (by decide)), if_neg (hother 't' (by decide)),
    if_neg (hother 'f' (by decide)), if_neg (hother '-' (by decide)), if_pos hat, hread]
  rfl

theorem goesOnWith_negative :
    GoesOnWith inner '-' fun c =>
      readNumber true c >>= fun taken => .ok (.number taken.1, taken.2) := by
  refine ⟨by decide, ?_⟩
  rintro ⟨_, _⟩ _ rfl
  rfl

theorem readsBack_negative {n : Nat} (hpos : n ≠ 0) (h : n ≤ Nat.pow 2 63) :
    ReadsBack (readValueWith inner) (.number (.integer (-n))) := by
  have htext : (toString (-n : Int)).toList = '-' :: Nat.toDigits 10 n := by
    obtain ⟨n, rfl⟩ := Nat.exists_eq_add_one_of_ne_zero hpos
    rw [← Nat.toList_repr]
    exact String.toList_append
  have hwrite : encode (Value.number (.integer (-n))).write =
      octet '-' :: (Nat.toDigits 10 n).map octet := by
    rw [Value.write, Number.write, htext, encode_cons, encode_toDigits]
    rfl
  exact goesOnWith_negative.readsBack hwrite fun hrest =>
    (takes_readNumber_neg hpos h hrest).map Value.number

theorem readsBack_integer {i : Int} (hlow : Int64.minValue.toInt ≤ i) (hhigh : i < UInt64.size) :
    ReadsBack (readValueWith inner) (.number (.integer i)) := by
  have hleast : Int64.minValue.toInt = -(Nat.pow 2 63 : Nat) := by decide
  rcases Int.eq_nat_or_neg i with ⟨n, rfl | rfl⟩
  · exact readsBack_natural (Int.ofNat_lt.1 hhigh)
  · by_cases hn : n = 0
    · subst hn
      exact readsBack_natural (by decide)
    · exact readsBack_negative hn (by omega)

/-! ## Items of containers -/

section Items

variable {α : Type}

/-- The text of an item; a comma stands before each item but the first. -/
def writeItem (write : α → List Char) (first : Bool) (a : α) : List Char :=
  if first then write a else ',' :: write a

/-- The text of items up to the end of their container. -/
def writeItems (write : α → List Char) : Bool → List α → List Char
  | _, [] => []
  | first, a :: more => writeItem write first a ++ writeItems write false more

theorem length_writeItem_pos {write : α → List Char} {a : α} (first : Bool) (h : write a ≠ []) :
    0 < (encode (writeItem write first a)).length := by
  have hfilled : writeItem write first a ≠ [] := by
    unfold writeItem
    split
    · exact h
    · exact List.cons_ne_nil _ _
  obtain ⟨ch, text, htext⟩ := List.exists_cons_of_ne_nil hfilled
  have hchar := List.length_pos_iff.2 (String.utf8EncodeChar_ne_nil (c := ch))
  rw [htext, encode_cons, List.length_append]
  omega

theorem endsNumber_writeItems (write : α → List Char) (more : List α) {close : Char}
    (hclose : goesOn (octet close) = false) (rest : List UInt8) :
    EndsNumber (encode (writeItems write false more) ++ octet close :: rest) := by
  cases more with
  | nil => exact endsNumber_cons hclose rest
  | cons a more =>
    -- The next item comes after its comma.
    have hcomma : goesOn (octet ',') = false := by decide
    exact endsNumber_cons hcomma _

/-- The loop reads these items, each with one unit of its fuel, up to the end of a container. -/
structure ReadsItems (loop : Nat → Bool → List α → Reader (List α)) (write : α → List Char)
    (close : Char) (items : List α) : Prop where
  filled : ∀ a ∈ items, write a ≠ []
  stops : ∀ {c : Cursor} {rest : List UInt8}, c.rest = octet close :: rest →
    ∀ (fuel : Nat) (first : Bool) (taken : List α), ∃ d : Cursor,
      loop (fuel + 1) first taken c = .ok (taken.reverse, d) ∧ d.rest = octet close :: rest
  passes : ∀ a ∈ items, ∀ {c : Cursor} {rest : List UInt8} {first : Bool},
    c.rest = encode (writeItem write first a) ++ rest → EndsNumber rest →
      ∀ (fuel : Nat) (taken : List α), ∃ d : Cursor,
        loop (fuel + 1) first taken c = loop fuel false (a :: taken) d ∧ d.rest = rest

/-- What such a loop reads, by induction on the items that are left. -/
theorem ReadsItems.reads {loop : Nat → Bool → List α → Reader (List α)} {write : α → List Char}
    {close : Char} {items : List α} (h : ReadsItems loop write close items)
    (hclose : goesOn (octet close) = false) {fuel : Nat} {first : Bool} {taken : List α}
    (hc : c.rest = encode (writeItems write first items) ++ octet close :: rest)
    (hfuel : c.rest.length < fuel) :
    ∃ d : Cursor, loop fuel first taken c = .ok (taken.reverse ++ items, d) ∧
      d.rest = octet close :: rest := by
  induction items generalizing c fuel first taken with
  | nil =>
    obtain ⟨fuel, rfl⟩ := Nat.exists_eq_add_one_of_ne_zero (Nat.ne_zero_of_lt hfuel)
    rw [List.append_nil]
    exact h.stops hc fuel first taken
  | cons a more ih =>
    obtain ⟨fuel, rfl⟩ := Nat.exists_eq_add_one_of_ne_zero (Nat.ne_zero_of_lt hfuel)
    rw [writeItems, encode_append, List.append_assoc] at hc
    obtain ⟨d, hread, hd⟩ := h.passes a List.mem_cons_self hc
      (endsNumber_writeItems write more hclose rest) fuel taken
    have hmore : ReadsItems loop write close more :=
      ⟨fun b hb => h.filled b (List.mem_cons_of_mem _ hb), h.stops,
        fun b hb => h.passes b (List.mem_cons_of_mem _ hb)⟩
    -- Every item has some text, so a unit of fuel for each is enough.
    have hshort : d.rest.length < fuel := by
      have hpos := length_writeItem_pos first (h.filled a List.mem_cons_self)
      rw [hc, List.length_append, ← hd] at hfuel
      omega
    obtain ⟨d', hread', hd'⟩ := ih hmore hd hshort
    refine ⟨d', ?_, hd'⟩
    rw [hread, hread', List.reverse_cons, List.append_assoc, List.singleton_append]

/-- A container is read back, if the reader of values goes past its items by such a loop. -/
theorem readsBack_container {loop : Nat → Bool → List α → Reader (List α)}
    {write : α → List Char} {opening close : Char} {items : List α} {v : Value}
    (make : List α → Value) (hmake : make items = v)
    (hitems : ReadsItems loop write close items) (hclose : goesOn (octet close) = false)
    (hwrite : encode v.write =
      octet opening :: (encode (writeItems write true items) ++ [octet close]))
    (h : GoesOnWith inner opening fun c => loop (c.rest.length + 2) true [] c >>= fun taken =>
      .ok (make taken.1, taken.2.advance)) :
    ReadsBack (readValueWith inner) v := by
  refine h.readsBack hwrite fun {rest} _ c hc => ?_
  rw [List.append_assoc, List.singleton_append] at hc
  have hfuel : c.rest.length < c.rest.length + 2 := Nat.lt_add_of_pos_right (by decide)
  obtain ⟨d, hread, hd⟩ : ∃ d : Cursor, loop (c.rest.length + 2) true [] c = .ok (items, d) ∧
      d.rest = octet close :: rest := hitems.reads hclose hc hfuel
  refine ⟨d.advance, ?_, by rw [rest_advance, hd, List.tail_cons]⟩
  show (loop (c.rest.length + 2) true [] c >>= fun taken =>
    .ok (make taken.1, taken.2.advance)) = Except.ok (v, d.advance)
  rw [hread, ← hmake]
  rfl

end Items

/-! ## Lists -/

variable {read : Reader Value}

theorem writeElements_eq (elements : List Value) :
    writeElements elements = writeItems Value.write true elements := by
  have hmore : ∀ (v : Value) (more : List Value),
      writeElements (v :: more) = v.write ++ writeItems Value.write false more := by
    intro v more
    induction more generalizing v with
    | nil => rw [writeElements, writeItems, List.append_nil]
    | cons w more ih =>
      rw [writeElements, ih, writeItems, writeItem, if_neg (by decide), List.cons_append]
  cases elements with
  | nil => rfl
  | cons v more => exact hmore v more

theorem readsItems_elements {elements : List Value} (h : ∀ v ∈ elements, ReadsBack read v) :
    ReadsItems (readElements read) Value.write ']' elements where
  filled := by
    intro v hv hempty
    obtain ⟨b, more, hwrite, -, -⟩ := (h v hv).starts
    rw [hempty] at hwrite
    cases hwrite
  stops := by
    intro c rest hc fuel first taken
    obtain ⟨hskip, hpeek⟩ := ahead_of_rest hc (by decide)
    have hend : nextElement first c = .ok (false, c) := by
      unfold nextElement
      dsimp only
      rw [hskip, hpeek]
      dsimp only
      rw [if_pos rfl]
    refine ⟨c, ?_, hc⟩
    rw [readElements, hend]
  passes := by
    intro v hv c rest first hc hrest fuel taken
    obtain ⟨b, more, hwrite, hblank, hend⟩ := (h v hv).starts
    -- Behind the comma, if there is one, the element is found at its first octet.
    have hnext : NextItem first c.rest (encode v.write ++ rest) := by
      cases first with
      | true => exact hc.symm
      | false => exact ⟨[], by simp, hc⟩
    have hhead : ((encode v.write ++ rest).dropWhile isSeparator).head? = some b := by
      rw [hwrite, List.cons_append, List.dropWhile_cons, hblank]
      rfl
    obtain ⟨c', hfound, hc'⟩ := nextElement_of_nextItem hnext hhead hend
    obtain ⟨hskip, -⟩ := ahead_of_rest (c := c') (by rw [hc', hwrite]; rfl) hblank
    obtain ⟨d, hread, hd⟩ := (h v hv).takes hrest c' hc'
    refine ⟨d, ?_, hd⟩
    rw [readElements, hfound]
    dsimp only
    rw [hskip, hread]

theorem readsBack_array {elements : List Value} (h : ∀ v ∈ elements, ReadsBack read v) :
    ReadsBack (readValueWith (some read)) (.array elements) := by
  have hwrite : encode (Value.array elements).write =
      octet '[' :: (encode (writeItems Value.write true elements) ++ [octet ']']) := by
    rw [Value.write, List.cons_append, encode_cons, encode_append, writeElements_eq]
    rfl
  refine readsBack_container .array rfl (readsItems_elements h) (by decide) hwrite ⟨by decide, ?_⟩
  rintro ⟨_, _⟩ _ rfl
  rfl

/-! ## Objects -/

/-- The text of a member. -/
def writeMember (m : String × Value) : List Char := writeString m.1 ++ ':' :: m.2.write

theorem writeMembers_eq (members : List (String × Value)) :
    writeMembers members = writeItems writeMember true members := by
  have hmore : ∀ (m : String × Value) (more : List (String × Value)),
      writeMembers (m :: more) = writeMember m ++ writeItems writeMember false more := by
    intro m more
    induction more generalizing m with
    | nil => rw [writeMembers, writeItems, List.append_nil, writeMember]
    | cons m' more ih =>
      rw [writeMembers, ih, writeItems, writeItem, if_neg (by decide), List.cons_append]
      simp only [writeMember, List.append_assoc, List.cons_append]
  cases members with
  | nil => rfl
  | cons m more => exact hmore m more

/-- The octets of a member after its opening quotation mark. -/
def memberOctets (m : String × Value) : List UInt8 :=
  encode (m.1.toList.flatMap escapeChar) ++ octet '"' :: octet ':' :: encode m.2.write

theorem encode_writeMember (m : String × Value) :
    encode (writeMember m) = octet '"' :: memberOctets m := by
  rw [writeMember, encode_append, encode_writeString, encode_cons, memberOctets, List.cons_append,
    List.append_assoc]
  rfl

theorem readsItems_members {members : List (String × Value)}
    (h : ∀ m ∈ members, ReadsBack read m.2) :
    ReadsItems (readMembers read) writeMember '\x7d' members where
  filled := by
    intro m hm hempty
    have hwrite := encode_writeMember m
    rw [hempty] at hwrite
    cases hwrite
  stops := by
    intro c rest hc fuel first taken
    have hmark : Mark '\x7d' c.rest rest := ⟨[], by simp, hc⟩
    obtain ⟨d, hend, hd⟩ := nextMember_of_mark hmark first
    refine ⟨d, ?_, hd⟩
    rw [readMembers, hend]
  passes := by
    intro m hm c rest first hc hrest fuel taken
    -- A key, a colon and a value are passed in turn, each from where the one before ended.
    have hnext : NextKey first c.rest (memberOctets m ++ rest) := by
      cases first with
      | true =>
        rw [writeItem, if_pos rfl, encode_writeMember] at hc
        exact ⟨[], by simp, hc⟩
      | false =>
        rw [writeItem, if_neg (by decide), encode_cons, encode_writeMember] at hc
        exact ⟨_, ⟨[], by simp, hc⟩, [], by simp, rfl⟩
    obtain ⟨c₁, hfound, hc₁⟩ := nextMember_of_nextKey hnext
    have hkey : c₁.advance.rest = encode (m.1.toList.flatMap escapeChar) ++
        octet '"' :: octet ':' :: (encode m.2.write ++ rest) := by
      rw [rest_advance, hc₁, memberOctets, List.append_assoc]
      rfl
    obtain ⟨c₂, hstring, hc₂⟩ := takes_readString m.1 c₁.advance hkey
    have hcolon : Mark ':' c₂.rest (encode m.2.write ++ rest) := ⟨[], by simp, hc₂⟩
    obtain ⟨c₃, hpassed, hc₃⟩ := takes_readColon_iff.2 hcolon c₂ rfl
    obtain ⟨d, hvalue, hd⟩ := (h m hm).takes hrest c₃ hc₃
    refine ⟨d, ?_, hd⟩
    rw [readMembers, hfound]
    dsimp only
    rw [hstring]
    dsimp only [bind, Except.bind]
    rw [hpassed]
    dsimp only
    rw [hvalue]

/-- A member whose key comes after all others is put at the end. -/
theorem putMember_of_forall_lt {key : String} {value : Value} {members : List (String × Value)}
    (h : ∀ m ∈ members, m.1 < key) : putMember key value members = members ++ [(key, value)] := by
  induction members with
  | nil => rfl
  | cons m members ih =>
    rw [List.forall_mem_cons] at h
    have hne : key ≠ m.1 := fun heq => String.lt_irrefl key (heq ▸ h.1)
    rw [putMember, if_neg hne, if_neg (String.lt_asymm h.1), ih h.2, List.cons_append]

/-- Members in order are put where they stand. -/
theorem ofMembers_of_sorted {members : List (String × Value)}
    (h : members.Pairwise fun m m' => m.1 < m'.1) : Value.ofMembers members = .object members := by
  have hput : ∀ before more : List (String × Value),
      (before ++ more).Pairwise (fun m m' => m.1 < m'.1) →
      more.foldl (fun sorted m => putMember m.1 m.2 sorted) before = before ++ more := by
    intro before more
    induction more generalizing before with
    | nil => exact fun _ => (List.append_nil before).symm
    | cons m more ih =>
      -- The members before are kept in the order of their keys, so this one comes last.
      intro hsorted
      have hlast : ∀ m' ∈ before, m'.1 < m.1 := fun m' hm' =>
        (List.pairwise_append.1 hsorted).2.2 m' hm' m List.mem_cons_self
      rw [List.foldl_cons, putMember_of_forall_lt hlast]
      have hmore := ih (before ++ [m]) (by rwa [List.append_assoc])
      rwa [List.append_assoc] at hmore
  rw [Value.ofMembers, hput [] members h, List.nil_append]

theorem readsBack_object {members : List (String × Value)}
    (hsorted : members.Pairwise fun m m' => m.1 < m'.1)
    (h : ∀ m ∈ members, ReadsBack read m.2) :
    ReadsBack (readValueWith (some read)) (.object members) := by
  have hwrite : encode (Value.object members).write =
      octet '\x7b' :: (encode (writeItems writeMember true members) ++ [octet '\x7d']) := by
    rw [Value.write, List.cons_append, encode_cons, encode_append, writeMembers_eq]
    rfl
  refine readsBack_container .ofMembers (ofMembers_of_sorted hsorted) (readsItems_members h)
    (by decide) hwrite ⟨by decide, ?_⟩
  rintro ⟨_, _⟩ _ rfl
  rfl

/-! ## All values -/

/-- What reads the values inside a container, which may nest so deep. -/
def readerInside : Nat → Option (Reader Value)
  | 0 => none
  | depth + 1 => some (readValueWithin depth)

theorem readValueWithin_eq (depth : Nat) :
    readValueWithin depth = readValueWith (readerInside depth) := by
  cases depth <;> rfl

/-- A plain value is read back by the reader that goes as deep as its containers nest. -/
theorem Value.IsPlain.readsBack {depth : Nat} {v : Value} (h : v.IsPlain depth) :
    ReadsBack (readValueWithin depth) v := by
  induction h with
  | null =>
    rw [readValueWithin_eq]
    exact readsBack_null
  | bool value =>
    rw [readValueWithin_eq]
    exact readsBack_bool value
  | integer hlow hhigh =>
    rw [readValueWithin_eq]
    exact readsBack_integer hlow hhigh
  | string s =>
    rw [readValueWithin_eq]
    exact readsBack_string s
  | array _ ih => exact readsBack_array ih
  | object hsorted _ ih => exact readsBack_object hsorted ih

/-- The octets of a plain value are read as this value. -/
theorem Value.IsPlain.parse_write {v : Value} (h : v.IsPlain maxDepth) :
    parse (encode v.write) = .ok v := by
  obtain ⟨d, hread, hd⟩ := h.readsBack.takes endsNumber_nil ⟨encode v.write, ⟨1, 0⟩⟩
    (List.append_nil _).symm
  have hnothing : AllSeparators d.rest := by
    rw [hd]
    exact nofun
  exact readWhole_eq_ok_iff.2 ⟨d, hread, hnothing⟩

/-- So is its text. -/
theorem Value.IsPlain.parseText_render {v : Value} (h : v.IsPlain maxDepth) :
    parseText v.render = .ok v := by
  rw [parseText, ofString, Value.render, String.toList_ofList]
  exact h.parse_write

end DaemonRpc.Json

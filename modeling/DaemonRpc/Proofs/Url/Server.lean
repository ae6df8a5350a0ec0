import DaemonRpc.Url.Parser

/-!
# The server of a URL

The server of a URL (`Url.server`) is what decides where a request is sent and with which
credentials: scheme, user name, password, host and the number after it. A reference that is joined
to a base names a server of its own if it has another scheme than the base, or two slashes of either
direction in front (`Url.namesServer`). If it does not, the URL has the server of its base
(`Url.server_of_join`). If it does, nothing of the base matters but its scheme
(`Url.join_of_namesServer`).
-/

namespace DaemonRpc.Url

/-- Where a request is sent, and with which credentials. -/
structure Server where
  scheme : List Char
  username : List Char
  password : List Char
  host : Option (List Char)
  portNumber : Option Nat
  deriving DecidableEq, Repr

/-- The server of a URL. -/
def server (u : Url) : Server := ⟨u.scheme, u.username, u.password, u.host, u.portNumber⟩

/-- The URL is one of HTTP. -/
def IsHttp (u : Url) : Prop := u.scheme = "http".toList ∨ u.scheme = "https".toList

/-- The text has two slashes of either direction in front. -/
def hasTwoSlashes : List Char → Bool
  | first :: second :: _ => isSlash first && isSlash second
  | _ => false

/-- The reference names a server of its own when it is joined to a base with this scheme. -/
def namesServer (scheme text : List Char) : Bool :=
  match splitScheme text with
  | some (other, rest) => other != scheme || hasTwoSlashes rest
  | none => hasTwoSlashes text

variable {base : Url} {text : List Char} {u : Url}

/-! ## What keeps the server -/

@[simp]
theorem server_withQuery (u : Url) (query : Option (List Char)) :
    (u.withQuery query).server = u.server := rfl

@[simp]
theorem server_withTail (u : Url) (text : List Char) : (u.withTail text).server = u.server := by
  unfold withTail
  split <;> rfl

@[simp]
theorem server_withPath (u : Url) (segments : List (List Char)) (text : List Char) :
    (u.withPath segments text).server = u.server := by
  rw [withPath, server_withTail]
  rfl

@[simp]
theorem server_asDirectory (u : Url) : u.asDirectory.server = u.server := by
  rw [asDirectory]
  repeat' split
  all_goals rfl

@[simp]
theorem scheme_asDirectory (u : Url) : u.asDirectory.scheme = u.scheme :=
  congrArg Server.scheme u.server_asDirectory

/-- A path that has structure keeps it. -/
@[simp]
theorem isBase_asDirectory (u : Url) : u.asDirectory.isBase = u.isBase := by
  rw [asDirectory]
  split
  · next list hpath => split <;> simp [isBase, hpath]
  · next text hpath =>
    split
    · rfl
    · split <;> simp [isBase, hpath]

theorem IsHttp.kind (h : u.IsHttp) : u.kind = .special := by
  rw [Url.kind]
  rcases h with h | h <;> rw [h] <;> rfl

/-! ## References -/

/-- Two slashes in front are two slashes to skip. -/
theorem length_takeWhile_isSlash (text : List Char) :
    (text.takeWhile isSlash).length < 2 ↔ hasTwoSlashes text = false := by
  match text with
  | [] => simp [hasTwoSlashes]
  | [c] => by_cases h : isSlash c = true <;> simp [hasTwoSlashes, h]
  | c :: d :: rest =>
    by_cases hc : isSlash c = true <;> by_cases hd : isSlash d = true <;>
      simp [hasTwoSlashes, hc, hd]

/-- A reference without two slashes in front stays on the server of its base. -/
theorem server_of_readRelative (htext : hasTwoSlashes text = false)
    (h : readRelative base text = .ok u) : u.server = base.server := by
  unfold readRelative at h
  split at h
  · exact (Except.ok.inj h) ▸ rfl
  · exact (Except.ok.inj h) ▸ server_withTail ..
  · exact (Except.ok.inj h) ▸ rfl
  · next c rest _ _ =>
    split at h
    · next hc =>
      split at h
      · next d more =>
        -- The path begins at the one slash that is there.
        have hd : isSlash d = false := by simpa [hasTwoSlashes, hc] using htext
        have hslash : ¬ d = '/' := by
          rintro rfl
          cases hd
        simp only [hd, hslash, Bool.and_eq_true, beq_iff_eq, and_false, if_false,
          Bool.false_eq_true] at h
        exact (Except.ok.inj h) ▸ server_withPath ..
      · exact (Except.ok.inj h) ▸ server_withPath ..
    · exact (Except.ok.inj h) ▸ server_withPath ..

/-- A reference with two slashes in front is read from its authority on. -/
theorem readRelative_of_hasTwoSlashes (htext : hasTwoSlashes text = true) :
    ∃ more, ∀ base, readRelative base text = readFromAuthority base.scheme more := by
  match text with
  | first :: second :: rest =>
    obtain ⟨hfirst, hsecond⟩ := Bool.and_eq_true_iff.1 htext
    have hquery : first ≠ '?' := by rintro rfl; cases hfirst
    have hfragment : first ≠ '#' := by rintro rfl; cases hfirst
    -- Two forward slashes are skipped alone, and with a backward one all slashes that follow.
    by_cases hboth : first = '/' ∧ second = '/'
    · obtain ⟨rfl, rfl⟩ := hboth
      exact ⟨rest, fun base => rfl⟩
    · refine ⟨(first :: second :: rest).dropWhile isSlash, fun base => ?_⟩
      simp [readRelative, hfirst, hsecond, hboth]
  | [] | [_] => simp [hasTwoSlashes] at htext

/-- A reference that repeats the scheme of its base is read as if it did not. -/
theorem readAfterScheme_self (hhttp : base.IsHttp) (htext : hasTwoSlashes text = false) :
    readAfterScheme (some base) base.scheme text = readRelative base text := by
  have hkind : SchemeKind.of base.scheme = .special := hhttp.kind
  have hslashes := (length_takeWhile_isSlash text).2 htext
  simp [readAfterScheme, hkind, Option.filter, hslashes]

/-- With another scheme, or with two slashes behind its scheme, a reference has no use for its
base. -/
theorem readAfterScheme_of_names (hhttp : base.IsHttp) {scheme : List Char}
    (hnames : scheme ≠ base.scheme ∨ hasTwoSlashes text = true) :
    readAfterScheme (some base) scheme text = readAfterScheme none scheme text := by
  unfold readAfterScheme
  split
  · simp [readFile, Option.filter, hhttp.kind]
  · have hnone : (some base).filter
        (fun b => (text.takeWhile isSlash).length < 2 && b.scheme == scheme) = none := by
      rcases hnames with hne | hslashes
      · simp [Option.filter, Ne.symm hne]
      · have hlong : ¬ (text.takeWhile isSlash).length < 2 := by
          rw [length_takeWhile_isSlash, hslashes]
          exact Bool.noConfusion
        simp [Option.filter, hlong]
    simp only [hnone]
    rfl
  · rfl

/-! ## Joining -/

theorem read_of_scheme {scheme rest : List Char}
    (h : splitScheme (clean text) = some (scheme, rest))
    (base : Option Url) : read base text = readAfterScheme base scheme rest := by
  simp only [read, h]

/-- A reference without a scheme is relative to its base. -/
theorem read_of_no_scheme (h : splitScheme (clean text) = none) (hkind : base.kind ≠ .file)
    (hbase : base.isBase = true) : read (some base) text = readRelative base (clean text) := by
  simp only [read, h]
  split
  · next heq => rw [heq, readRelative]
  · simp [hbase, hkind]

/-- Only a fragment goes with a base that has no structure. -/
theorem server_of_read_rootless (h : splitScheme (clean text) = none) (hbase : base.isBase = false)
    (hread : read (some base) text = .ok u) :
    hasTwoSlashes (clean text) = false ∧ u.server = base.server := by
  simp only [read, h] at hread
  split at hread
  · next rest heq =>
    rw [heq]
    refine ⟨?_, (Except.ok.inj hread) ▸ rfl⟩
    cases rest <;> rfl
  · simp [hbase] at hread

/-- The URL has the server of its base, if the reference names none of its own. -/
theorem server_of_join (hhttp : base.IsHttp) {s : String}
    (hnames : namesServer base.scheme (clean s.toList) = false) (h : base.join s = .ok u) :
    u.server = base.server := by
  rw [join] at h
  unfold namesServer at hnames
  split at hnames
  · next other rest hscheme =>
    obtain ⟨rfl, hrest⟩ : other = base.scheme ∧ hasTwoSlashes rest = false := by simpa using hnames
    -- The scheme of the base is written once more, which changes nothing.
    rw [read_of_scheme hscheme, readAfterScheme_self hhttp hrest] at h
    exact server_of_readRelative hrest h
  · next hscheme =>
    cases hbase : base.isBase with
    | true =>
      rw [read_of_no_scheme hscheme (by simp [hhttp.kind]) hbase] at h
      exact server_of_readRelative hnames h
    | false => exact (server_of_read_rootless hscheme hbase h).2

/-- A reference that names a server gives the same URL with every base of the scheme. -/
theorem join_of_namesServer (hhttp : base.IsHttp) {s : String} {other : Url}
    (hnames : namesServer base.scheme (clean s.toList) = true) (h : base.join s = .ok u)
    (hother : other.scheme = base.scheme) (hbase : other.isBase = true) :
    other.join s = .ok u := by
  have hhttp' : other.IsHttp := by rwa [IsHttp, hother]
  rw [join] at h ⊢
  unfold namesServer at hnames
  split at hnames
  · next scheme rest hscheme =>
    have hnamed : scheme ≠ base.scheme ∨ hasTwoSlashes rest = true := by simpa using hnames
    rw [read_of_scheme hscheme, readAfterScheme_of_names hhttp hnamed] at h
    rwa [read_of_scheme hscheme, readAfterScheme_of_names hhttp' (hother ▸ hnamed)]
  · next hscheme =>
    obtain ⟨more, hmore⟩ := readRelative_of_hasTwoSlashes hnames
    cases hrooted : base.isBase with
    | true =>
      rw [read_of_no_scheme hscheme (by simp [hhttp.kind]) hrooted, hmore] at h
      rwa [read_of_no_scheme hscheme (by simp [hhttp'.kind]) hbase, hmore, hother]
    | false =>
      -- With such a base only a fragment is read, and that has no slashes in front.
      have hnot := (server_of_read_rootless hscheme hrooted h).1
      rw [hnames] at hnot
      cases hnot

/-! ## References that name no server -/

/-- The character is read as it is, and neither ends a scheme nor separates segments. -/
def isPlain (c : Char) : Bool := 0x20 < c.toNat && c != ':' && !isSlash c

/-- A text that begins with a plain segment still does after blanks and tabs were taken away. -/
theorem clean_segment {segment : List Char} (hne : segment ≠ [])
    (hplain : ∀ c ∈ segment, isPlain c = true) (rest : List Char) :
    ∃ more, clean (segment ++ '/' :: rest) = segment ++ '/' :: more := by
  have hvisible : ∀ c ∈ segment, 0x20 < c.toNat := by
    intro c hc
    have h := hplain c hc
    simp only [isPlain, Bool.and_eq_true, decide_eq_true_eq] at h
    exact h.1.1
  have hkept : segment.filter (fun c => c != '\t' && c != '\n' && c != '\r') = segment := by
    refine List.filter_eq_self.2 fun c hc => ?_
    have h := hvisible c hc
    simp only [Bool.and_eq_true, bne_iff_ne]
    refine ⟨⟨?_, ?_⟩, ?_⟩ <;> (rintro rfl; exact absurd h (by decide))
  -- Nothing is taken away in front of the segment, and no further than to the slash behind it.
  have hstart : (segment ++ '/' :: rest).dropWhile (fun c => decide (c.toNat ≤ 0x20)) =
      segment ++ '/' :: rest := by
    obtain ⟨c, more, rfl⟩ := List.exists_cons_of_ne_nil hne
    have h := hvisible c List.mem_cons_self
    rw [List.cons_append, List.dropWhile_cons, if_neg (by simpa using h)]
  have hend : ∃ more, Text.dropEndWhile (fun c => decide (c.toNat ≤ 0x20))
      (segment ++ '/' :: rest) = segment ++ '/' :: more := by
    refine ⟨(rest.reverse.dropWhile fun c => decide (c.toNat ≤ 0x20)).reverse, ?_⟩
    have hslash : ¬ '/'.toNat ≤ 0x20 := by decide
    simp only [Text.dropEndWhile, List.reverse_append, List.reverse_cons, List.append_assoc,
      List.singleton_append, List.dropWhile_append, List.dropWhile_cons, decide_eq_true_eq, hslash,
      if_false, List.isEmpty_iff]
    split
    · next h => simp [h]
    · simp
  obtain ⟨more, hmore⟩ := hend
  refine ⟨more.filter fun c => c != '\t' && c != '\n' && c != '\r', ?_⟩
  rw [clean, hstart, hmore, List.filter_append, hkept]
  rfl

/-- A text that begins with a plain segment names no server. -/
theorem namesServer_segment {segment : List Char} (hne : segment ≠ [])
    (hplain : ∀ c ∈ segment, isPlain c = true) (scheme rest : List Char) :
    namesServer scheme (segment ++ '/' :: rest) = false := by
  -- What may belong to a scheme ends at the latest at the slash, and before it there is no colon.
  have hcolon : ∀ more, (segment ++ '/' :: rest).dropWhile isSchemeChar ≠ ':' :: more := by
    clear hne
    induction segment with
    | nil =>
      have hslash : isSchemeChar '/' = false := by decide
      simp [hslash]
    | cons c segment ih =>
      intro more
      obtain ⟨hc, hsegment⟩ := List.forall_mem_cons.1 hplain
      rw [List.cons_append, List.dropWhile_cons]
      split
      · exact ih hsegment more
      · rintro heq
        obtain ⟨rfl, -⟩ := List.cons.inj heq
        exact absurd hc (by decide)
  have hscheme : splitScheme (segment ++ '/' :: rest) = none := by
    rw [splitScheme]
    split
    · next more _ heq => exact absurd heq (hcolon more)
    · rfl
  obtain ⟨c, more, rfl⟩ := List.exists_cons_of_ne_nil hne
  have hc : isSlash c = false := by
    have h := hplain c List.mem_cons_self
    simp only [isPlain, Bool.and_eq_true, Bool.not_eq_true'] at h
    exact h.2
  rw [namesServer, hscheme]
  cases more <;> simp [hasTwoSlashes, hc]

end DaemonRpc.Url

import DaemonRpc.Proofs.Url.Server

/-!
# The scheme of a URL

What is read after a scheme has this scheme (`Url.scheme_of_readAfterScheme`). A reference that is
joined to a URL of HTTP has the scheme that it names, and the one of its base if it names none
(`Url.scheme_of_join`).
-/

namespace DaemonRpc.Url

variable {base u : Url} {scheme text : List Char}

@[simp]
theorem scheme_withTail (u : Url) (text : List Char) : (u.withTail text).scheme = u.scheme :=
  congrArg Server.scheme (u.server_withTail text)

@[simp]
theorem scheme_withPath (u : Url) (segments : List (List Char)) (text : List Char) :
    (u.withPath segments text).scheme = u.scheme :=
  congrArg Server.scheme (u.server_withPath segments text)

/-- A URL that is read from its authority on begins with an empty path. -/
theorem exists_of_readFromAuthority (h : readFromAuthority scheme text = .ok u) :
    ∃ v : Url, ∃ rest, v.scheme = scheme ∧ v.path = .segments [] ∧
      (u = v ∨ u = v.withTail rest ∨ u = v.withPath [] rest) := by
  rw [readFromAuthority] at h
  simp only [bind, Except.bind, pure, Except.pure, throw, throwThe, MonadExceptOf.throw] at h
  repeat' split at h
  all_goals try contradiction
  all_goals obtain rfl := Except.ok.inj h
  all_goals
    first
    | exact ⟨_, _, rfl, rfl, .inr (.inr rfl)⟩
    | exact ⟨_, _, rfl, rfl, .inr (.inl rfl)⟩
    | exact ⟨_, [], rfl, rfl, .inl rfl⟩

theorem scheme_of_readFromAuthority (h : readFromAuthority scheme text = .ok u) :
    u.scheme = scheme := by
  obtain ⟨v, rest, hscheme, -, hu⟩ := exists_of_readFromAuthority h
  -- Path, query and fragment are put in behind the scheme.
  rcases hu with rfl | rfl | rfl <;> simpa using hscheme

/-- Without a base a `file` URL begins with an empty path as well, but for its drive. -/
theorem exists_of_readFile (h : readFile none text = .ok u) :
    ∃ v : Url, ∃ rest, v.scheme = "file".toList ∧
      (u = v.withPath [] rest ∨ u = (v.withPath [] rest).withoutHostOfDrive) := by
  have hsingle : ∀ {text}, readFile.single none text = .ok u →
      ∃ rest, u = fileRoot.withPath [] rest := by
    intro text h
    cases text <;>
    · obtain rfl := Except.ok.inj h
      exact ⟨_, rfl⟩
  have hhost : ∀ {text}, readFileHost text = .ok u →
      ∃ v : Url, ∃ rest, v.scheme = "file".toList ∧
        (u = v.withPath [] rest ∨ u = (v.withPath [] rest).withoutHostOfDrive) := by
    intro text h
    rw [readFileHost] at h
    simp only [bind, Except.bind, pure, Except.pure] at h
    repeat' split at h
    all_goals try contradiction
    all_goals obtain rfl := Except.ok.inj h
    all_goals
      first
      | exact ⟨_, _, rfl, .inl rfl⟩
      | exact ⟨_, _, rfl, .inr rfl⟩
  rw [readFile.eq_def] at h
  repeat' split at h
  · exact hhost h
  all_goals
    obtain ⟨rest, rfl⟩ := hsingle h
    exact ⟨fileRoot, rest, rfl, .inl rfl⟩

theorem kind_eq_file_iff : SchemeKind.of scheme = .file ↔ scheme = "file".toList := by
  rw [SchemeKind.of]
  split
  · next h => simp [h]
  · next h =>
    split <;> exact ⟨nofun, fun heq => absurd heq h⟩

/-- What is read after a scheme has this scheme. -/
theorem scheme_of_readAfterScheme (h : readAfterScheme none scheme text = .ok u) :
    u.scheme = scheme := by
  unfold readAfterScheme at h
  split at h
  · next hkind =>
    obtain ⟨v, rest, hscheme, hu⟩ := exists_of_readFile h
    have hdrive : ∀ v : Url, v.withoutHostOfDrive.scheme = v.scheme := by
      intro v
      rw [withoutHostOfDrive]
      repeat' split
      all_goals rfl
    rw [kind_eq_file_iff.1 hkind, ← hscheme]
    rcases hu with rfl | rfl <;> simp [hdrive]
  · exact scheme_of_readFromAuthority h
  · split at h
    · exact scheme_of_readFromAuthority h
    · obtain rfl := Except.ok.inj h
      simp
    · obtain rfl := Except.ok.inj h
      simp

/-- A reference has the scheme that it names, and the one of its base if it names none. -/
theorem scheme_of_join (hhttp : base.IsHttp) {s : String} (h : base.join s = .ok u) :
    u.scheme = ((splitScheme (clean s.toList)).map Prod.fst).getD base.scheme := by
  cases hnames : namesServer base.scheme (clean s.toList) with
  | false =>
    -- Then the reference names the scheme of its base, if it names one at all.
    have hsame : u.scheme = base.scheme := congrArg Server.scheme (server_of_join hhttp hnames h)
    unfold namesServer at hnames
    split at hnames
    · next other rest hscheme =>
      obtain ⟨rfl, -⟩ : other = base.scheme ∧ hasTwoSlashes rest = false := by simpa using hnames
      rw [hscheme, hsame]
      rfl
    · next hscheme =>
      rw [hscheme, hsame]
      rfl
  | true =>
    rw [join] at h
    unfold namesServer at hnames
    split at hnames
    · next other rest hscheme =>
      have hnamed : other ≠ base.scheme ∨ hasTwoSlashes rest = true := by simpa using hnames
      rw [read_of_scheme hscheme, readAfterScheme_of_names hhttp hnamed] at h
      rw [scheme_of_readAfterScheme h, hscheme]
      rfl
    · next hscheme =>
      -- Two slashes name another server, and keep the scheme.
      obtain ⟨more, hmore⟩ := readRelative_of_hasTwoSlashes hnames
      cases hrooted : base.isBase with
      | true =>
        rw [read_of_no_scheme hscheme (by simp [hhttp.kind]) hrooted, hmore] at h
        rw [scheme_of_readFromAuthority h, hscheme]
        rfl
      | false =>
        rw [(server_of_read_rootless hscheme hrooted h).1] at hnames
        cases hnames

end DaemonRpc.Url

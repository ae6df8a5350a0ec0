import DaemonRpc.Proofs.Request.Destination
import DaemonRpc.Proofs.Request.Query
import DaemonRpc.Proofs.Url.Scheme
import Mathlib.Tactic.ByContra

/-!
# Building a request once more

The parameters of a built request are read back from its URL as they were, and keys that are in
kebab case stay as they are (`Params.kebab_kebab`). So the URL of a request is built once more as
the same URL (`RequestSpec.build_again`), unless the command left HTTP for another scheme when it
was joined to the base (`ClientConfig.LeavesHttp`). Such a URL is refused the second time, though
not the first.

The second time no text is read, so it does not matter how hosts are read. The first time a host
with a character beyond ASCII has no request here, and `xn--` labels are taken as they are
(`Url.isForbiddenInName`).
-/

namespace DaemonRpc

/-! ## Kebab case -/

namespace Params

/-- The character stays as it is in kebab case, wherever it stands. -/
def IsKebab (c : Char) : Prop := ¬('A' ≤ c ∧ c ≤ 'Z') ∧ c ≠ '_'

theorem isKebab_hyphen : IsKebab '-' := by
  unfold IsKebab
  decide

theorem isKebab_lowerAscii {c : Char} (h : c ≠ '_') : IsKebab (Text.lowerAscii c) := by
  by_cases hcapital : 'A' ≤ c ∧ c ≤ 'Z'
  · have hhigh : c.toNat ≤ 'Z'.toNat := hcapital.2
    have hsmall : c.toNat < 128 := Nat.lt_of_le_of_lt hhigh (by decide)
    have hletter : ∀ c : Char, c.toNat < 128 → 'A' ≤ c ∧ c ≤ 'Z' →
        ¬('A' ≤ Text.lowerAscii c ∧ Text.lowerAscii c ≤ 'Z') ∧ Text.lowerAscii c ≠ '_' :=
      Text.forall_ascii (by decide +kernel)
    exact hletter c hsmall hcapital
  · rw [Text.lowerAscii, if_neg hcapital]
    exact ⟨hcapital, h⟩

/-- A character is written in characters that stay. -/
theorem isKebab_of_mem_kebabChar {c k : Char} (h : k ∈ kebabChar c) : IsKebab k := by
  rw [kebabChar] at h
  split at h
  · next hcapital =>
    have hc : c ≠ '_' := by
      rintro rfl
      exact absurd hcapital (by decide)
    rcases List.mem_cons.1 h with rfl | h
    · exact isKebab_hyphen
    · exact List.mem_singleton.1 h ▸ isKebab_lowerAscii hc
  · next hcapital =>
    split at h
    · exact List.mem_singleton.1 h ▸ isKebab_hyphen
    · next hc => exact List.mem_singleton.1 h ▸ ⟨hcapital, hc⟩

theorem isKebab_of_mem_kebabKey {key : String} {c : Char} (h : c ∈ (kebabKey key).toList) :
    IsKebab c := by
  rw [kebabKey] at h
  split at h
  · cases h
  · next first rest _ =>
    -- The first character gets no hyphen in front, unlike the others.
    rw [String.toList_ofList] at h
    rcases List.mem_cons.1 h with rfl | h
    · split
      · exact isKebab_hyphen
      · next hfirst => exact isKebab_lowerAscii hfirst
    · obtain ⟨k, -, hk⟩ := List.mem_flatMap.1 h
      exact isKebab_of_mem_kebabChar hk

/-- A key of characters that stay is in kebab case. -/
theorem kebabKey_of_isKebab {key : String} (h : ∀ c ∈ key.toList, IsKebab c) :
    kebabKey key = key := by
  have hstay : ∀ text : List Char, (∀ c ∈ text, IsKebab c) → text.flatMap kebabChar = text := by
    intro text htext
    induction text with
    | nil => rfl
    | cons c text ih =>
      obtain ⟨hc, hrest⟩ := List.forall_mem_cons.1 htext
      rw [List.flatMap_cons, ih hrest, kebabChar, if_neg hc.1, if_neg hc.2, List.singleton_append]
  rw [kebabKey]
  match hkey : key.toList with
  | [] => exact (String.toList_eq_nil_iff.1 hkey).symm
  | first :: rest =>
    rw [hkey] at h
    obtain ⟨hfirst, hrest⟩ := List.forall_mem_cons.1 h
    simp only [hstay rest hrest, if_neg hfirst.2, Text.lowerAscii, if_neg hfirst.1, ← hkey,
      String.ofList_toList]

/-- Keys that are in kebab case stay as they are. -/
theorem kebab_kebab (p : Params) : p.kebab.kebab = p.kebab := by
  rw [kebab, mapKeys, kebab, mapKeys, List.map_map]
  refine congrArg Params.mk (List.map_congr_left fun pair _ => ?_)
  have hkey : kebabKey (kebabKey pair.1) = kebabKey pair.1 :=
    kebabKey_of_isKebab fun _ hc => isKebab_of_mem_kebabKey hc
  simp only [Function.comp, hkey]

end Params

namespace ClientConfig

/-- Joined to the base URL, the command names a scheme that is not one of HTTP. -/
def LeavesHttp (config : ClientConfig) (text : String) : Prop :=
  Url.parse (Text.trim text) = .error .relativeWithoutBase ∧
    ∃ scheme rest, Url.splitScheme (config.reference text) = some (scheme, rest) ∧
      scheme ≠ "http".toList ∧ scheme ≠ "https".toList

variable {config : ClientConfig} {text : String} {url : Url}

/-- Behind a plain path of the interface no command leaves HTTP. -/
theorem not_leavesHttp (h : config.HasPlainInterface) (text : String) :
    ¬ config.LeavesHttp text := by
  rintro ⟨-, scheme, rest, hscheme, -⟩
  -- A scheme would name a server for a base of any other scheme.
  have hnames := namesServer_reference h ('x' :: scheme) text
  rw [Url.namesServer, hscheme] at hnames
  simp at hnames

/-- The URL of a text is one of HTTP, unless the text is a command that leaves it. -/
theorem isHttp_of_resolve_iff (hhttp : config.baseUrl.IsHttp) (h : config.resolve text = .ok url) :
    url.IsHttp ↔ ¬ config.LeavesHttp text := by
  by_cases hrelative : Url.parse (Text.trim text) = .error .relativeWithoutBase
  · have hdirectory : config.baseUrl.asDirectory.IsHttp := by
      rwa [Url.IsHttp, Url.scheme_asDirectory]
    obtain ⟨-, hjoin⟩ := (resolve_eq_ok_iff hrelative).1 h
    have hscheme := Url.scheme_of_join hdirectory hjoin
    rw [Url.scheme_asDirectory] at hscheme
    -- What is joined is the reference without what is cleaned away.
    change url.scheme = ((Url.splitScheme (config.reference text)).map Prod.fst).getD
      config.baseUrl.scheme at hscheme
    cases hnamed : Url.splitScheme (config.reference text) with
    | none =>
      rw [hnamed] at hscheme
      refine iff_of_true ?_ ?_
      · rwa [Url.IsHttp, hscheme]
      · rintro ⟨-, scheme, rest, hsome, -⟩
        rw [hnamed] at hsome
        cases hsome
    | some named =>
      rw [hnamed] at hscheme
      constructor
      · rintro hurl ⟨-, scheme, rest, hsome, hne⟩
        obtain rfl := Option.some.inj (hnamed.symm.trans hsome)
        rw [Url.IsHttp, hscheme] at hurl
        exact hurl.elim hne.1 hne.2
      · intro hstays
        by_contra hurl
        rw [Url.IsHttp, hscheme, not_or] at hurl
        exact hstays ⟨hrelative, named.1, named.2, hnamed, hurl⟩
  · refine iff_of_true ?_ fun hleaves => hrelative hleaves.1
    -- A text that is no command is a URL whose scheme was checked.
    rw [resolve] at h
    split at h
    · cases h
    · split at h
      · exact (checkScheme_eq_ok_iff.1 h).2
      · next hparse => exact absurd hparse hrelative
      · cases h

end ClientConfig

namespace RequestSpec

variable {config : ClientConfig} {resource : Resource} {options : RequestOptions}
  {spec : RequestSpec}

/-- Parameters that are put into a URL once more change nothing. -/
theorem withParams_withParams (url : Url) (params : Params) :
    withParams (withParams url params) params = withParams url params := rfl

/-- A call without options, defaults and a time limit sends the query of its URL, with the last
change made. -/
theorem exists_buildAt_bare (hparams : config.params = {}) (htimeout : config.timeout = none)
    (url : Url) :
    ∃ spec, buildAt config url {} = .ok spec ∧
      spec.url = withParams url (lastChange config {} ⟨url.queryPairs⟩) := by
  have hmerge : mergeParams config url {} = ⟨url.queryPairs⟩ := by
    simp [mergeParams, Params.merge, hparams]
  rw [buildAt, htimeout, hmerge]
  exact ⟨_, rfl, rfl⟩

/-- Kebab case is changed no further by kebab case, and neither is what is not changed at all. -/
theorem lastChange_lastChange
    (hchange : config.transformParams = some Params.kebab ∨ config.transformParams = none)
    (hoptions : options.transformParams = none) (params : Params) :
    lastChange config {} (lastChange config options params) = lastChange config options params := by
  rcases hchange with hkebab | hnone
  · simp [lastChange, hoptions, hkebab, Params.kebab_kebab]
  · simp [lastChange, hoptions, hnone]

/-- The URL of a built request is built once more as the same URL. A command that left HTTP is
refused the second time. Behind a plain path of the interface none does. -/
theorem build_again (hhttp : config.baseUrl.IsHttp) (hparams : config.params = {})
    (htimeout : config.timeout = none)
    (hchange : config.transformParams = some Params.kebab ∨ config.transformParams = none)
    (hresource : ∀ given, resource ≠ .prebuilt given) (hoptions : options.transformParams = none)
    (h : build config resource options = .ok spec) :
    ((∀ text, resource = .path text → ¬ config.LeavesHttp text) →
        ∃ again, build config (.url spec.url) {} = .ok again ∧ again.url = spec.url) ∧
      (∀ text, resource = .path text → config.LeavesHttp text →
        build config (.url spec.url) {} =
          .error (.invalidResource (.unsupportedScheme spec.url))) ∧
      (config.HasPlainInterface → ∀ text, ¬ config.LeavesHttp text) := by
  obtain ⟨url, hurl, hbuild⟩ := exists_of_build hresource h
  obtain ⟨timeout, params, -, hspec⟩ := exists_of_buildAt hbuild
  obtain ⟨sent, hsent⟩ :
      ∃ sent, lastChange config options (appendArgs options.args params) = sent :=
    ⟨_, rfl⟩
  rw [hsent] at hspec
  have hscheme : spec.url.IsHttp ↔ url.IsHttp := hspec ▸ Iff.rfl
  have hquery : spec.url.queryPairs = sent.pairs := hspec ▸ (read_withParams url sent).1
  refine ⟨fun hstays => ?_, fun text htext hleaves => ?_, fun hplain => ?_⟩
  · have hspecHttp : spec.url.IsHttp := by
      rw [hscheme]
      match resource with
      | .prebuilt given => exact absurd rfl (hresource given)
      | .url given => exact hurl.2
      | .path text => exact (ClientConfig.isHttp_of_resolve_iff hhttp hurl).2 (hstays text rfl)
    obtain ⟨again, hagain, hsame⟩ := exists_buildAt_bare hparams htimeout spec.url
    refine ⟨again, ?_, ?_⟩
    · rw [build, checkScheme_eq_ok_iff.2 ⟨rfl, hspecHttp⟩]
      exact hagain
    · have hstays := lastChange_lastChange hchange hoptions (appendArgs options.args params)
      rw [hsent] at hstays
      rw [hsame, hquery, hstays, hspec, withParams_withParams]
  · subst htext
    have hspecHttp : ¬ spec.url.IsHttp := by
      rw [hscheme, ClientConfig.isHttp_of_resolve_iff hhttp hurl]
      exact not_not_intro hleaves
    have hrefused :
        checkScheme spec.url = .error (.invalidResource (.unsupportedScheme spec.url)) :=
      if_neg hspecHttp
    rw [build, hrefused]
    rfl
  · exact ClientConfig.not_leavesHttp hplain

/-- A key in another case, and a value of marks. -/
theorem build_again_of_command :
    let options : RequestOptions := { params := ⟨[("cidVersion", "&=+%#é")]⟩, args := ["a b"] }
    ∃ spec again, build .standard (.path "add?x_Y=1") options = .ok spec ∧
      build .standard (.url spec.url) {} = .ok again ∧ again.url = spec.url := by
  intro options
  obtain ⟨hagain, -, hplain⟩ := @build_again .standard (.path "add?x_Y=1") options _ (.inl rfl) rfl
    rfl (.inl rfl) (by simp) rfl rfl
  have hstays := hplain ⟨by decide, List.all_eq_true.1 (by decide)⟩
  obtain ⟨again, hbuild, hsame⟩ := hagain fun text _ => hstays text
  exact ⟨_, again, rfl, hbuild, hsame⟩

/-- Without a path of the interface a command can name another scheme. What is built for it is
refused when it is built again. -/
theorem refused_again :
    let config := { ClientConfig.standard with apiPath := "" }
    ∃ spec, build config (.path "/ftp://host/x") {} = .ok spec ∧ spec.url.toText = "ftp://host/x" ∧
      build config (.url spec.url) {} =
        .error (.invalidResource (.unsupportedScheme spec.url)) := by
  exact ⟨_, rfl, by decide, rfl⟩

end RequestSpec

end DaemonRpc

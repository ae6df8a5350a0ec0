import DaemonRpc.Proofs.Request.Destination
import DaemonRpc.Proofs.Url.Segments

/-!
# Where a command lands on its server

A command of ordinary segments lands below the path of the base URL and the path of the interface
(`ClientConfig.resolve_ordinary`): no segment of the base is dropped, nothing is normalized, and
slashes around the path of the interface, in front of the command and at the end of the base do not
matter. The host is the one of the base, which is not read again, so it does not matter how hosts
are read (`Url.isForbiddenInName`).
-/

namespace DaemonRpc.ClientConfig

open Url

variable {config : ClientConfig} {text : String} {api command : List (List Char)}

/-- The path of a command and the one of the interface are joined with one slash. -/
theorem commandPath_ordinary (hordinary : ∀ segment ∈ api ++ command, IsOrdinary segment)
    (hne : command ≠ []) (hinterface : config.interface = joinWith '/' api)
    (hcommand : text.toList.dropWhile (· == '/') = joinWith '/' command) :
    config.commandPath text = String.ofList (joinWith '/' (api ++ command)) := by
  rw [interface] at hinterface
  rw [commandPath]
  simp only [hinterface, hcommand]
  -- Without a path of the interface there is nothing to put a slash behind.
  by_cases hapi : api = []
  · subst hapi
    rfl
  · have hsegments : ∀ segment ∈ api, IsOrdinary segment :=
      fun segment hs => hordinary segment (List.mem_append_left _ hs)
    obtain ⟨c, rest, hhead, -⟩ := exists_joinWith_ordinary hsegments hapi
    rw [joinWith_append '/' hapi hne, hhead]
    rfl

/-- Such a command is no URL, and no blanks stand around it. -/
theorem relative_of_ordinary (hordinary : ∀ segment ∈ command, IsOrdinary segment)
    (hne : command ≠ [])
    (hcommand : text.toList.dropWhile (· == '/') = joinWith '/' command) :
    Text.trim text = text ∧ text ≠ "" ∧ Url.parse text = .error .relativeWithoutBase := by
  have hsplit := List.takeWhile_append_dropWhile (p := (· == '/')) (l := text.toList)
  -- Slashes and unreserved characters are all that the text holds.
  have hchars : ∀ c ∈ text.toList, 0x20 < c.toNat ∧ Text.isBlank c = false ∧
      endsPath c = false ∧ c ≠ ':' := by
    intro c hc
    rw [← hsplit, List.mem_append, hcommand] at hc
    rcases hc with hc | hc
    · exact slash_or_unreserved_char (.inl (by simpa using List.mem_takeWhile_imp hc))
    · exact slash_or_unreserved_char (mem_joinWith_ordinary hordinary hc)
  refine ⟨?_, ?_, ?_⟩
  · rw [Text.trim, Text.trimChars, Text.dropEndWhile_dropWhile fun c hc => (hchars c hc).2.1,
      String.ofList_toList]
  · rintro rfl
    obtain ⟨c, rest, hhead, -⟩ := exists_joinWith_ordinary hordinary hne
    rw [hhead] at hcommand
    cases hcommand
  · have hscheme : splitScheme text.toList = none :=
      splitScheme_of_not_mem fun hcolon => (hchars _ hcolon).2.2.2 rfl
    simp [Url.parse, Url.read, clean_of_visible fun c hc => (hchars c hc).1, hscheme]

/-- The URL whose segments stand behind the path of a base as a directory. -/
def below (base : Url) (segments : List (List Char)) : Url :=
  { base.asDirectory with
    path := .segments (base.asDirectory.directory ++ segments)
    query := none
    fragment := none }

theorem server_below (base : Url) (segments : List (List Char)) :
    (below base segments).server = base.server :=
  server_asDirectory base

theorem write_below {base : Url} (h : base.HasSegments) {segments : List (List Char)}
    (hne : segments ≠ []) :
    (below base segments).path.write = closed base.path.write ++ joinWith '/' segments := by
  rw [← write_asDirectory h, List.append_assoc]
  exact write_append hne

theorem hasSegments_below {base : Url} (h : base.HasSegments) {segments : List (List Char)}
    (hordinary : ∀ segment ∈ segments, IsOrdinary segment) : (below base segments).HasSegments := by
  refine ⟨_, rfl, fun segment hsegment hslash => ?_⟩
  rcases List.mem_append.1 hsegment with hsegment | hsegment
  · exact slash_directory h segment hsegment hslash
  · have hfree := (hordinary segment hsegment).isSeparator .plain '/' hslash
    cases hfree

/-- The segments of a command land behind those of the interface, and these behind the path of the
base URL as a directory. -/
theorem resolve_eq_below (hhttp : config.baseUrl.IsHttp) (hsegments : config.baseUrl.HasSegments)
    (hordinary : ∀ segment ∈ api ++ command, IsOrdinary segment) (hne : command ≠ [])
    (hinterface : config.interface = joinWith '/' api)
    (hcommand : text.toList.dropWhile (· == '/') = joinWith '/' command) :
    config.resolve text = .ok (below config.baseUrl (api ++ command)) := by
  obtain ⟨htrim, hempty, hrelative⟩ := relative_of_ordinary
    (fun segment hs => hordinary segment (List.mem_append_right _ hs)) hne hcommand
  have hdirectory : config.baseUrl.asDirectory.IsHttp := by
    rwa [Url.IsHttp, Url.scheme_asDirectory]
  have hbase : config.baseUrl.asDirectory.isBase = true := by
    obtain ⟨list, hpath, -⟩ := hsegments
    rw [isBase_asDirectory, isBase, hpath]
  rw [resolve_eq_ok_iff (htrim.symm ▸ hrelative), htrim,
    commandPath_ordinary hordinary hne hinterface hcommand]
  exact ⟨hempty, join_ordinary hdirectory hbase hordinary (by simp [hne])⟩

/-- A command of ordinary segments lands on the server of the base URL, below its path and the path
of the interface. Only the segments matter: slashes around the path of the interface, in front of
the command and at the end of the path of the base do not. -/
theorem resolve_ordinary (hhttp : config.baseUrl.IsHttp)
    (hsegments : config.baseUrl.HasSegments)
    (hordinary : ∀ segment ∈ api ++ command, IsOrdinary segment) (hne : command ≠ [])
    (hinterface : config.interface = joinWith '/' api)
    (hcommand : text.toList.dropWhile (· == '/') = joinWith '/' command) :
    ∃ url, config.resolve text = .ok url ∧
      url.server = config.baseUrl.server ∧ url.query = none ∧ url.fragment = none ∧
      url.path.write = closed config.baseUrl.path.write ++ joinWith '/' (api ++ command) ∧
      ∀ (other : ClientConfig) (text' : String), other.baseUrl.HasSegments →
        other.baseUrl.server = config.baseUrl.server →
        closed other.baseUrl.path.write = closed config.baseUrl.path.write →
        other.interface = config.interface →
        text'.toList.dropWhile (· == '/') = text.toList.dropWhile (· == '/') →
        other.resolve text' = .ok url := by
  have hne' : api ++ command ≠ [] := by simp [hne]
  refine ⟨_, resolve_eq_below hhttp hsegments hordinary hne hinterface hcommand,
    server_below .., rfl, rfl, write_below hsegments hne', ?_⟩
  intro other text' hsegments' hserver hpath hinterface' htext
  have hhttp' : other.baseUrl.IsHttp := by
    rwa [IsHttp, show other.baseUrl.scheme = config.baseUrl.scheme from
      congrArg Server.scheme hserver]
  rw [resolve_eq_below hhttp' hsegments' hordinary hne (hinterface'.trans hinterface)
    (htext.trans hcommand)]
  -- The closed paths of the bases are the same, and so is what is written behind them.
  refine congrArg Except.ok (eq_of_write (hasSegments_below hsegments' hordinary)
    (hasSegments_below hsegments hordinary) ?_ ?_ rfl rfl)
  · rw [server_below, server_below, hserver]
  · rw [write_below hsegments' hne', write_below hsegments hne', hpath]

/-- A daemon behind a proxy that serves it below a path, asked with slashes to spare. -/
theorem resolve_behind_proxy :
    let config := { ClientConfig.standard with
      baseUrl := ⟨"http".toList, [], [], some "gateway.local".toList, none,
        .segments ["kubo".toList], none, none⟩
      apiPath := "//api/v0/" }
    config.baseUrl.IsHttp ∧ config.baseUrl.HasSegments ∧
      ∃ url, config.resolve "//repo/gc" = .ok url ∧
        url.path.write = "/kubo/api/v0/repo/gc".toList := by
  intro config
  have hhttp : config.baseUrl.IsHttp := .inl rfl
  have hsegments : config.baseUrl.HasSegments := ⟨["kubo".toList], rfl, by decide⟩
  have hordinary : ∀ segment ∈ ["api".toList, "v0".toList] ++ ["repo".toList, "gc".toList],
      IsOrdinary segment := by
    intro segment hsegment
    simp only [List.cons_append, List.nil_append, List.mem_cons, List.not_mem_nil, or_false]
      at hsegment
    rcases hsegment with rfl | rfl | rfl | rfl <;>
      exact ⟨by decide, by decide, by decide, List.all_eq_true.1 (by decide)⟩
  obtain ⟨url, hurl, -, -, -, hpath, -⟩ :=
    @resolve_ordinary config "//repo/gc" _ _ hhttp hsegments hordinary (by simp) (by decide)
      (by decide)
  exact ⟨hhttp, hsegments, url, hurl, hpath.trans (by decide)⟩

end DaemonRpc.ClientConfig

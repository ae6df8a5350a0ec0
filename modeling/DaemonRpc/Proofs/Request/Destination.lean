import DaemonRpc.Proofs.Request.Building

/-!
# Where a command is sent

A command is sent to the server of the base URL, unless its path below the path of the interface
names a server of its own when it is joined to the base (`RequestSpec.server_of_build`). Slashes are
taken away in front of a command and around the path of the interface, but only forward ones, and
before blanks and tabs are: so without a path of the interface a command can name a server
(`RequestSpec.sent_elsewhere`). Behind a path of the interface that begins with a plain segment it
cannot (`ClientConfig.namesServer_reference`).

Whether a reference names a server is told by its scheme and its slashes alone. Which server that is
depends on how hosts are read: one with a character beyond ASCII is refused, and `xn--` labels are
taken as they are (`Url.isForbiddenInName`).
-/

namespace DaemonRpc

namespace ClientConfig

/-- The path of the interface without slashes around it. -/
def interface (config : ClientConfig) : List Char :=
  Text.dropEndWhile (· == '/') (config.apiPath.toList.dropWhile (· == '/'))

/-- The path of the interface begins with a segment that is plain. -/
def HasPlainInterface (config : ClientConfig) : Prop :=
  config.interface ≠ [] ∧ ∀ c ∈ config.interface.takeWhile (· ≠ '/'), Url.isPlain c = true

/-- What is joined to the base URL for a command, as it is read. -/
def reference (config : ClientConfig) (text : String) : List Char :=
  Url.clean (config.commandPath (Text.trim text)).toList

variable {config : ClientConfig} {text : String} {url : Url}

theorem endpoint_eq_ok_iff {path : String} :
    config.endpoint path = .ok url ↔
      config.baseUrl.asDirectory.join (config.commandPath path) = .ok url := by
  rw [endpoint]
  cases config.baseUrl.asDirectory.join (config.commandPath path) <;> simp

/-- A path that is no URL is a command, unless it is empty. -/
theorem resolve_eq_ok_iff (hrelative : Url.parse (Text.trim text) = .error .relativeWithoutBase) :
    config.resolve text = .ok url ↔
      Text.trim text ≠ "" ∧
        config.baseUrl.asDirectory.join (config.commandPath (Text.trim text)) = .ok url := by
  rw [← endpoint_eq_ok_iff, resolve]
  by_cases hempty : Text.trim text = ""
  · simp [hempty]
  · simp [hempty, hrelative]

/-- Only the path of the interface and the command matter for what is joined to the base. -/
theorem commandPath_congr {other : ClientConfig} (h : other.apiPath = config.apiPath)
    (path : String) : other.commandPath path = config.commandPath path := by
  simp only [commandPath, h]

/-- The path of the interface does not begin with a slash. -/
theorem head?_interface (config : ClientConfig) : config.interface.head? ≠ some '/' := by
  intro hslash
  -- It is the beginning of a text without slashes in front.
  have hprefix : config.interface <+: config.apiPath.toList.dropWhile (· == '/') := by
    have hsuffix := List.dropWhile_suffix (· == '/')
      (l := (config.apiPath.toList.dropWhile (· == '/')).reverse)
    simpa [interface, Text.dropEndWhile] using List.reverse_prefix.2 hsuffix
  obtain ⟨more, hmore⟩ := hprefix
  have hhead := List.head?_dropWhile_not (· == '/') config.apiPath.toList
  rw [← hmore, List.head?_append, hslash] at hhead
  simp at hhead

/-- A command stands behind a slash, and so does what follows the first segment of the interface. -/
theorem exists_commandPath (h : config.interface ≠ []) (path : String) :
    ∃ rest, (config.commandPath path).toList =
      config.interface.takeWhile (· ≠ '/') ++ '/' :: rest := by
  have hpath : (config.commandPath path).toList =
      config.interface ++ '/' :: path.toList.dropWhile (· == '/') := by
    have hempty : config.interface.isEmpty = false := by simpa using h
    rw [interface] at hempty
    simp only [commandPath, hempty, Bool.false_eq_true, if_false, String.toList_ofList]
    rfl
  have hsplit := List.takeWhile_append_dropWhile (p := (· ≠ '/')) (l := config.interface)
  have hhead := List.head?_dropWhile_not (fun c => decide (c ≠ '/')) config.interface
  rw [hpath]
  match hrest : config.interface.dropWhile (· ≠ '/') with
  | [] =>
    rw [hrest, List.append_nil] at hsplit
    rw [hsplit]
    exact ⟨_, rfl⟩
  | c :: rest =>
    rw [hrest] at hhead hsplit
    obtain rfl : c = '/' := by simpa using hhead
    refine ⟨rest ++ '/' :: path.toList.dropWhile (· == '/'), ?_⟩
    rw [← List.cons_append, ← List.append_assoc, hsplit]

/-- Behind a plain path of the interface no command names a server. -/
theorem namesServer_reference (h : config.HasPlainInterface) (scheme : List Char) (text : String) :
    Url.namesServer scheme (config.reference text) = false := by
  obtain ⟨hne, hplain⟩ := h
  have hsegment : config.interface.takeWhile (· ≠ '/') ≠ [] := by
    obtain ⟨c, rest, hrest⟩ := List.exists_cons_of_ne_nil hne
    have hslash := config.head?_interface
    rw [hrest, List.head?_cons] at hslash
    have hc : c ≠ '/' := fun heq => hslash (heq ▸ rfl)
    simp [hrest, hc]
  obtain ⟨rest, hrest⟩ := exists_commandPath hne (Text.trim text)
  obtain ⟨more, hmore⟩ := Url.clean_segment hsegment hplain rest
  rw [reference, hrest, hmore]
  exact Url.namesServer_segment hsegment hplain scheme more

end ClientConfig

namespace RequestSpec

variable {config : ClientConfig} {text : String} {options : RequestOptions} {spec : RequestSpec}

/-- A request has the server of the URL of its resource. -/
theorem exists_server_of_build (h : build config (.path text) options = .ok spec) :
    ∃ url, config.resolve text = .ok url ∧ spec.url.server = url.server := by
  obtain ⟨url, hurl, hbuild⟩ := exists_of_build (by simp) h
  obtain ⟨timeout, params, -, hspec⟩ := exists_of_buildAt hbuild
  exact ⟨url, hurl, hspec ▸ Url.server_withQuery ..⟩

/-- A command is sent to the server of the base URL, unless it names a server itself. Then it is
sent to that one, whatever the server of the base. Behind a plain path of the interface no command
names a server. -/
theorem server_of_build (hhttp : config.baseUrl.IsHttp)
    (hrelative : Url.parse (Text.trim text) = .error .relativeWithoutBase)
    (h : build config (.path text) options = .ok spec) :
    (Url.namesServer config.baseUrl.scheme (config.reference text) = false →
        spec.url.server = config.baseUrl.server) ∧
      (Url.namesServer config.baseUrl.scheme (config.reference text) = true →
        ∀ other : ClientConfig, other.apiPath = config.apiPath →
          other.baseUrl.scheme = config.baseUrl.scheme → other.baseUrl.isBase = true →
            ∃ url, other.resolve text = .ok url ∧ url.server = spec.url.server) ∧
      (config.HasPlainInterface →
        Url.namesServer config.baseUrl.scheme (config.reference text) = false) := by
  obtain ⟨url, hurl, hserver⟩ := exists_server_of_build h
  obtain ⟨hne, hjoin⟩ := (ClientConfig.resolve_eq_ok_iff hrelative).1 hurl
  have hdirectory : config.baseUrl.asDirectory.IsHttp := by
    rwa [Url.IsHttp, Url.scheme_asDirectory]
  refine ⟨fun hnames => ?_, fun hnames other hpath hscheme hbase => ?_,
    fun hplain => ClientConfig.namesServer_reference hplain _ text⟩
  · rw [← Url.scheme_asDirectory] at hnames
    rw [hserver, Url.server_of_join hdirectory hnames hjoin, Url.server_asDirectory]
  · rw [← Url.scheme_asDirectory] at hnames
    refine ⟨url, (ClientConfig.resolve_eq_ok_iff hrelative).2 ⟨hne, ?_⟩, hserver.symm⟩
    rw [ClientConfig.commandPath_congr hpath]
    exact Url.join_of_namesServer hdirectory hnames hjoin (by simp [hscheme]) (by simp [hbase])

/-- Slashes in front of a command do not matter behind the usual path of the interface. -/
theorem server_of_command :
    Url.parse (Text.trim "//repo/gc") = .error .relativeWithoutBase ∧
      ∃ spec, build .standard (.path "//repo/gc") {} = .ok spec ∧
        spec.url.server = ClientConfig.standard.baseUrl.server := by
  refine ⟨rfl, _, rfl, ?_⟩
  have hlaw := @server_of_build .standard "//repo/gc" {} _ (.inl rfl) rfl rfl
  exact hlaw.1 (hlaw.2.2 ⟨by decide, List.all_eq_true.1 (by decide)⟩)

/-- Without a path of the interface the slash in front of a URL makes it a command, and then it is
taken away. -/
theorem sent_elsewhere :
    let config := { ClientConfig.standard with apiPath := "" }
    Url.parse (Text.trim "/http://other/x") = .error .relativeWithoutBase ∧
      ∃ spec, build config (.path "/http://other/x") {} = .ok spec ∧
        spec.url.server ≠ config.baseUrl.server := by
  exact ⟨rfl, _, rfl, by decide⟩

end RequestSpec

end DaemonRpc

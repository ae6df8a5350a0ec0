import DaemonRpc.Config.Builder
import DaemonRpc.Proofs.Duration.Readings
import DaemonRpc.Proofs.Request.Building

/-!
# Configurations that are accepted

A time limit is checked when a configuration is built, but only for what the client waits. A call
also tells the daemon of it, and reads it in another way for that. Still no later call fails on a
configuration that was accepted: it has a request exactly if its resource has a URL, and the client
waits for it as long as was found at first (`ClientSettings.outcome_of_accepted`).

Which settings are accepted and which resources have a URL depends on how hosts are read: those with
a character beyond ASCII are refused here, so nothing is said of them, and `xn--` labels are taken
as they are (`Url.isForbiddenInName`).
-/

namespace DaemonRpc

/-- How long the client waits under a limit that may be missing. -/
def Timeout.wait : Option Timeout → Except Error (Option Duration)
  | none => .ok none
  | some t => t.duration

theorem checkTimeout_eq (limit : Option Timeout) :
    checkTimeout limit = (Timeout.wait limit).map fun _ => () := by
  cases limit <;> rfl

/-- What comes behind the check of a limit is reached only if the client can wait for it. -/
theorem exists_wait_of_checkTimeout {limit : Option Timeout} {accepted config : ClientConfig}
    (h : (do checkTimeout limit; return accepted) = Except.ok config) :
    accepted = config ∧ ∃ wait, Timeout.wait limit = .ok wait := by
  rw [checkTimeout_eq] at h
  cases hwait : Timeout.wait limit with
  | error e =>
    rw [hwait] at h
    cases h
  | ok wait =>
    rw [hwait] at h
    exact ⟨Except.ok.inj h, wait, rfl⟩

/-! ## Failures that name the resource -/

section Resources

variable {config : ClientConfig} {text : String} {url : Url} {e : Error}

theorem exists_cause_of_checkScheme (h : checkScheme url = .error e) :
    ∃ cause, e = .invalidResource cause := by
  rw [checkScheme] at h
  split at h
  · cases h
  · exact ⟨_, (Except.error.inj h).symm⟩

theorem ClientConfig.exists_cause_of_endpoint (h : config.endpoint text = .error e) :
    ∃ cause, e = .invalidResource cause := by
  simp only [endpoint] at h
  split at h
  · cases h
  · exact ⟨_, (Except.error.inj h).symm⟩

theorem ClientConfig.exists_cause_of_resolve (h : config.resolve text = .error e) :
    ∃ cause, e = .invalidResource cause := by
  simp only [resolve] at h
  split at h
  · exact ⟨_, (Except.error.inj h).symm⟩
  · -- The text is a URL, the path of a command or neither.
    split at h
    · exact exists_cause_of_checkScheme h
    · exact exists_cause_of_endpoint h
    · exact ⟨_, (Except.error.inj h).symm⟩

end Resources

/-! ## Requests -/

namespace RequestSpec

variable {config : ClientConfig} {url : Url} {resource : Resource} {options : RequestOptions}
  {limit : Option Timeout} {wait : Option Duration}

/-- A resource has a URL, for which the request is built, or the failure names the resource. -/
theorem build_cases (hresource : ∀ given, resource ≠ .prebuilt given) :
    (∃ url, resource.Denotes config url ∧
        build config resource options = buildAt config url options) ∨
      (∀ url, ¬ resource.Denotes config url) ∧
        ∃ cause, build config resource options = .error (.invalidResource cause) := by
  match resource with
  | .prebuilt given => exact absurd rfl (hresource given)
  | .url given =>
    simp only [build, Resource.Denotes, ← checkScheme_eq_ok_iff]
    cases hscheme : checkScheme given with
    | ok url => exact .inl ⟨url, rfl, rfl⟩
    | error e =>
      obtain ⟨cause, rfl⟩ := exists_cause_of_checkScheme hscheme
      exact .inr ⟨by simp, cause, rfl⟩
  | .path text =>
    simp only [build, Resource.Denotes]
    cases hresolve : config.resolve text with
    | ok url => exact .inl ⟨url, rfl, rfl⟩
    | error e =>
      obtain ⟨cause, rfl⟩ := ClientConfig.exists_cause_of_resolve hresolve
      exact .inr ⟨by simp, cause, rfl⟩

/-- A limit for which the client can wait is also told, or need not be. -/
theorem exists_applyTimeout (h : Timeout.wait limit = .ok wait) (params : Params) :
    ∃ after, applyTimeout limit params = .ok (wait, after) := by
  cases limit with
  | none =>
    obtain rfl := Except.ok.inj h
    exact ⟨params, rfl⟩
  | some t =>
    rw [Timeout.wait] at h
    -- The text for the daemon was not checked, but it exists whenever the client can wait.
    obtain ⟨value, hvalue⟩ := Timeout.exists_toQueryValue h
    simp only [applyTimeout, h, hvalue, bind, Except.bind]
    split <;> exact ⟨_, rfl⟩

theorem exists_buildAt (h : Timeout.wait (options.timeout <|> config.timeout) = .ok wait)
    (url : Url) : ∃ spec, buildAt config url options = .ok spec ∧ spec.timeout = wait := by
  obtain ⟨after, hafter⟩ := exists_applyTimeout h (mergeParams config url options)
  rw [buildAt_eq, hafter]
  exact ⟨_, rfl, rfl⟩

end RequestSpec

/-! ## Settings -/

namespace ClientSettings

variable {settings : ClientSettings} {env : Environment} {config : ClientConfig}

/-- The limit of a configuration is the one that is set, or else that of the environment, and the
client can wait for it. -/
theorem exists_wait_of_build (h : settings.build env = .ok config) :
    config.timeout = (settings.timeout <|> env.timeout?) ∧
      ∃ wait, Timeout.wait config.timeout = .ok wait := by
  rw [build] at h
  -- A base URL that is given is read before the limit is checked; the usual one needs no reading.
  split at h
  · obtain ⟨rfl, hwait⟩ := exists_wait_of_checkTimeout h
    exact ⟨rfl, hwait⟩
  · next text _ =>
    cases hurl : parseBaseUrl text with
    | error e =>
      rw [hurl] at h
      cases h
    | ok url =>
      rw [hurl] at h
      obtain ⟨rfl, hwait⟩ := exists_wait_of_checkTimeout h
      exact ⟨rfl, hwait⟩

/-- Whatever is set and whatever the environment, a configuration that is accepted fails no later
call without a limit of its own: there is a request if the resource has a URL, with the time that
was found when the limit was checked, and else the failure names the resource. -/
theorem outcome_of_accepted (h : settings.build env = .ok config) :
    ∃ wait, Timeout.wait (settings.timeout <|> env.timeout?) = .ok wait ∧
      ∀ resource options, (∀ given, resource ≠ .prebuilt given) →
        options.timeout = none →
          (∃ url spec, resource.Denotes config url ∧
              RequestSpec.build config resource options = .ok spec ∧ spec.timeout = wait) ∨
            (∀ url, ¬ resource.Denotes config url) ∧
              ∃ cause, RequestSpec.build config resource options =
                .error (.invalidResource cause) := by
  obtain ⟨hlimit, wait, hwait⟩ := exists_wait_of_build h
  refine ⟨wait, hlimit ▸ hwait, fun resource options hresource hnone => ?_⟩
  refine (RequestSpec.build_cases hresource).imp_left ?_
  rintro ⟨url, hdenotes, hbuild⟩
  have hown : Timeout.wait (options.timeout <|> config.timeout) = .ok wait := by
    rw [hnone]
    exact hwait
  obtain ⟨spec, hspec, htime⟩ := RequestSpec.exists_buildAt hown url
  exact ⟨url, spec, hdenotes, hbuild.trans hspec, htime⟩

/-- A limit with blanks around and in it is read when it is checked, and told in other words. -/
theorem outcome_of_command :
    ∃ config spec, build {} [("KUBO_RPC_TIMEOUT", " 2m 10s ")] = .ok config ∧
      RequestSpec.build config (.path "add") {} = .ok spec ∧
      spec.timeout = some ⟨130000000000⟩ := by
  have htime : Timeout.wait (Environment.timeout? [("KUBO_RPC_TIMEOUT", " 2m 10s ")]) =
      .ok (some ⟨130000000000⟩) := by decide +kernel
  have hbuild : build {} [("KUBO_RPC_TIMEOUT", " 2m 10s ")] =
      .ok { ClientConfig.standard with timeout := some (.text "2m 10s") } := by
    have hurl : Environment.url? [("KUBO_RPC_TIMEOUT", " 2m 10s ")] = none := rfl
    simp only [build, hurl, Option.orElse_eq_orElse, Option.orElse_none]
    rw [checkTimeout_eq, htime]
    rfl
  obtain ⟨wait, hwait, houtcome⟩ := outcome_of_accepted hbuild
  obtain rfl := Except.ok.inj (hwait.symm.trans htime)
  rcases houtcome (.path "add") {} (by simp) rfl with ⟨-, spec, -, hspec⟩ | ⟨hnone, -⟩
  · exact ⟨_, spec, hbuild, hspec⟩
  · exact absurd rfl (hnone _)

end ClientSettings

end DaemonRpc

import DaemonRpc.Proofs.Url.Server
import DaemonRpc.Request

/-!
# Building a request

A resource that is not resolved already denotes a URL (`Resource.Denotes`). If a request can be
built for it, the request goes to that URL, with another query (`RequestSpec.exists_of_build`). Once
a resource has a URL, the time limit alone decides whether there is a request
(`RequestSpec.buildAt_eq`).

A text has a URL if `Url.parse` or `Url.join` reads one. Hosts with a character beyond ASCII have
none here, and every `xn--` label is taken as it is (`Url.isForbiddenInName`); this bounds all that
is proved about requests.
-/

namespace DaemonRpc

theorem checkScheme_eq_ok_iff {given url : Url} :
    checkScheme given = .ok url ↔ given = url ∧ url.IsHttp := by
  rw [checkScheme]
  split
  · next h =>
    constructor
    · intro heq
      obtain rfl := Except.ok.inj heq
      exact ⟨rfl, h⟩
    · rintro ⟨rfl, -⟩
      rfl
  · next h =>
    constructor
    · intro heq
      cases heq
    · rintro ⟨rfl, hhttp⟩
      exact absurd hhttp h

/-- The URL of a resource that is not resolved already. -/
def Resource.Denotes (config : ClientConfig) (url : Url) : Resource → Prop
  | .path text => config.resolve text = .ok url
  | .url given => given = url ∧ url.IsHttp
  | .prebuilt _ => False

namespace RequestSpec

variable {config : ClientConfig} {url : Url} {resource : Resource} {options : RequestOptions}
  {spec : RequestSpec}

/-- The last change to the parameters of a call. -/
def lastChange (config : ClientConfig) (options : RequestOptions) : Params → Params :=
  (options.transformParams <|> config.transformParams).getD id

/-- The request for a URL once it is known how long the client waits, and with which parameters the
daemon learns of it. -/
def limitedTo (config : ClientConfig) (url : Url) (options : RequestOptions)
    (limit : Option Duration × Params) : RequestSpec :=
  let body := applyBody options (config.headers.extend options.headers)
  { method := options.method.getD "GET"
    url := withParams url (lastChange config options (appendArgs options.args limit.2))
    headers := body.2
    body := body.1
    timeout := limit.1
    signal := options.signal
    transform := options.transform
    hook := options.hook
    throwHttpErrors := options.throwHttpErrors.getD config.throwHttpErrors }

/-- Only the time limit keeps a request for a URL from being built. -/
theorem buildAt_eq (config : ClientConfig) (url : Url) (options : RequestOptions) :
    buildAt config url options =
      (applyTimeout (options.timeout <|> config.timeout) (mergeParams config url options)).map
        (limitedTo config url options) := by
  rw [buildAt]
  cases applyTimeout (options.timeout <|> config.timeout) (mergeParams config url options) <;> rfl

theorem exists_limit_of_buildAt (h : buildAt config url options = .ok spec) :
    ∃ limit, applyTimeout (options.timeout <|> config.timeout) (mergeParams config url options) =
      .ok limit ∧ spec = limitedTo config url options limit := by
  rw [buildAt_eq] at h
  cases hlimit : applyTimeout (options.timeout <|> config.timeout)
      (mergeParams config url options) with
  | error e =>
    rw [hlimit] at h
    cases h
  | ok limit =>
    rw [hlimit] at h
    exact ⟨limit, rfl, (Except.ok.inj h).symm⟩

/-- The parameters of a request are those of all layers and the time limit, then the arguments, and
then the last change is made. -/
theorem exists_of_buildAt (h : buildAt config url options = .ok spec) :
    ∃ timeout params,
      applyTimeout (options.timeout <|> config.timeout) (mergeParams config url options) =
        .ok (timeout, params) ∧
      spec.url =
        withParams url (lastChange config options (appendArgs options.args params)) := by
  obtain ⟨⟨timeout, params⟩, hlimit, rfl⟩ := exists_limit_of_buildAt h
  exact ⟨timeout, params, hlimit, rfl⟩

theorem exists_of_build (hresource : ∀ given, resource ≠ .prebuilt given)
    (h : build config resource options = .ok spec) :
    ∃ url, resource.Denotes config url ∧ buildAt config url options = .ok spec := by
  match resource with
  | .prebuilt given => exact absurd rfl (hresource given)
  | .url given =>
    rw [build] at h
    cases hscheme : checkScheme given with
    | error e =>
      rw [hscheme] at h
      cases h
    | ok url =>
      rw [hscheme] at h
      exact ⟨url, checkScheme_eq_ok_iff.1 hscheme, h⟩
  | .path text =>
    rw [build] at h
    cases hresolve : config.resolve text with
    | error e =>
      rw [hresolve] at h
      cases h
    | ok url =>
      rw [hresolve] at h
      exact ⟨url, hresolve, h⟩

end RequestSpec

end DaemonRpc

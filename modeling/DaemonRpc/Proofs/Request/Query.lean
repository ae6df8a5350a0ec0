import DaemonRpc.Proofs.Request.Building
import DaemonRpc.Proofs.Url.FormReading

/-!
# The query of a request

The parameters of a request come in layers: those of the URL, of the configuration and of the call.
A later layer takes the place of an earlier one key by key (`overlay`). The time limit
(`LimitPairs`) and the arguments follow, and then the last change is made. The daemon reads exactly
these pairs from the query of the request (`RequestSpec.query_of_build`).

There are no requests to hosts with a character beyond ASCII here, and `xn--` labels are taken as
they are (`Url.isForbiddenInName`). The rest of a URL is what `Url.withQuery` leaves of it, blanks
at the end of a path without structure included.
-/

namespace DaemonRpc

open Url.Form (Pair)

/-! ## Layers -/

/-- Pairs, where those of a later layer take the place of all that have their keys. -/
def overlay (earlier later : List Pair) : List Pair :=
  (earlier.filter fun pair => pair.1 ∉ later.map Prod.fst) ++ later

namespace Params

theorem pairs_foldl_remove (later : List Pair) (p : Params) :
    (later.foldl (fun p pair => p.remove pair.1) p).pairs =
      p.pairs.filter fun pair => pair.1 ∉ later.map Prod.fst := by
  induction later generalizing p with
  | nil => exact (List.filter_eq_self.2 fun _ _ => decide_eq_true List.not_mem_nil).symm
  | cons pair later ih =>
    rw [List.foldl_cons, ih, remove, List.filter_filter]
    refine List.filter_congr fun other _ => ?_
    simp only [List.map_cons, List.mem_cons, not_or, Bool.decide_and, Bool.and_comm]

/-- Merging overlays the pairs. -/
theorem pairs_merge (p later : Params) : (p.merge later).pairs = overlay p.pairs later.pairs := by
  rw [merge, pairs_foldl_remove]
  rfl

/-- A key that has a value is one of the keys. -/
theorem contains_eq (p : Params) (key : String) :
    p.contains key = decide (key ∈ p.pairs.map Prod.fst) := by
  rw [Bool.eq_iff_iff, contains, List.any_eq_true, decide_eq_true_iff, List.mem_map]
  simp only [decide_eq_true_eq]

/-- A key that is not there is set by a pair at the end. -/
theorem pairs_set {p : Params} {key : String} (h : p.contains key = false) (value : String) :
    (p.set key value).pairs = p.pairs ++ [(key, value)] := by
  have hset : ∀ pairs : List Pair, key ∉ pairs.map Prod.fst →
      setPairs key value pairs = pairs ++ [(key, value)] := by
    intro pairs hkey
    induction pairs with
    | nil => rfl
    | cons pair pairs ih =>
      rw [List.map_cons, List.mem_cons, not_or] at hkey
      rw [setPairs, if_neg (Ne.symm hkey.1), ih hkey.2, List.cons_append]
  exact hset p.pairs (by simpa [contains_eq] using h)

end Params

/-! ## Time limits and arguments -/

/-- The pairs with which the daemon learns of a time limit, next to other pairs. A limit of zero is
none, and one that the caller states as a parameter stays as it is. -/
inductive LimitPairs (others : List Pair) : Option Timeout → List Pair → Prop where
  | unlimited : LimitPairs others none []
  | zero {limit : Timeout} (h : limit.duration = .ok none) : LimitPairs others (some limit) []
  | stated {limit : Timeout} {d : Duration} (h : limit.duration = .ok (some d))
      (hkey : "timeout" ∈ others.map Prod.fst) : LimitPairs others (some limit) []
  | told {limit : Timeout} {d : Duration} {value : String} (h : limit.duration = .ok (some d))
      (hkey : "timeout" ∉ others.map Prod.fst) (hvalue : limit.toQueryValue = .ok value) :
      LimitPairs others (some limit) [("timeout", value)]

namespace RequestSpec

variable {config : ClientConfig} {resource : Resource} {options : RequestOptions}
  {spec : RequestSpec}

theorem limitPairs_of_applyTimeout {limit : Option Timeout} {timeout : Option Duration}
    {params after : Params} (h : applyTimeout limit params = .ok (timeout, after)) :
    ∃ pairs, LimitPairs params.pairs limit pairs ∧ after.pairs = params.pairs ++ pairs := by
  cases limit with
  | none =>
    obtain ⟨-, rfl⟩ := Prod.mk.inj (Except.ok.inj h)
    exact ⟨[], .unlimited, (List.append_nil _).symm⟩
  | some limit =>
    rw [applyTimeout] at h
    cases hduration : limit.duration with
    | error e =>
      rw [hduration] at h
      cases h
    | ok duration =>
      simp only [hduration, bind, Except.bind, Params.contains_eq] at h
      cases duration with
      | none =>
        obtain ⟨-, rfl⟩ := Prod.mk.inj (Except.ok.inj h)
        exact ⟨[], .zero hduration, (List.append_nil _).symm⟩
      | some d =>
        -- A limit that is a parameter already is not told a second time.
        by_cases hkey : "timeout" ∈ params.pairs.map Prod.fst
        · simp only [hkey, decide_true, Bool.not_true, Bool.and_false] at h
          obtain ⟨-, rfl⟩ := Prod.mk.inj (Except.ok.inj h)
          exact ⟨[], .stated hduration hkey, (List.append_nil _).symm⟩
        · simp only [hkey, decide_false, Bool.not_false, Bool.and_true, Option.isSome_some,
            if_true] at h
          cases hvalue : limit.toQueryValue with
          | error e =>
            rw [hvalue] at h
            cases h
          | ok value =>
            rw [hvalue] at h
            obtain ⟨-, rfl⟩ := Prod.mk.inj (Except.ok.inj h)
            refine ⟨[("timeout", value)], .told hduration hkey hvalue, Params.pairs_set ?_ value⟩
            rw [Params.contains_eq, decide_eq_false hkey]

theorem appendArgs_eq (args : List String) (params : Params) :
    appendArgs args params = ⟨params.pairs ++ args.map fun value => ("arg", value)⟩ := by
  rw [appendArgs]
  induction args generalizing params with
  | nil => simp
  | cons value args ih =>
    rw [List.foldl_cons, ih]
    simp [Params.append]

/-- The daemon reads the parameters from the query that they are put into; without parameters there
is no query. -/
theorem read_withParams (url : Url) (params : Params) :
    Url.Form.decode ((withParams url params).query.getD []) = params.pairs ∧
      ((withParams url params).query = none ↔ params.pairs = []) := by
  rw [withParams]
  cases hpairs : params.pairs with
  | nil =>
    rw [Params.isEmpty, hpairs]
    exact ⟨rfl, by simp [Url.withQuery]⟩
  | cons pair pairs =>
    rw [Params.isEmpty, hpairs, List.isEmpty_cons, if_neg Bool.false_ne_true, Params.encode,
      Url.query_withQuery_encode, hpairs]
    exact ⟨Url.Form.decode_encode _, by simp⟩

/-- From the query of a request exactly the parameters of all layers are read, with the time limit
and the arguments behind them and the last change made. A request without parameters has no query.
All else of its URL is that of its resource. -/
theorem query_of_build (hresource : ∀ given, resource ≠ .prebuilt given)
    (h : build config resource options = .ok spec) :
    ∃ url limit,
      let layers := overlay (overlay url.queryPairs config.params.pairs) options.params.pairs
      let args := options.args.map fun value => ("arg", value)
      let change := (options.transformParams <|> config.transformParams).getD id
      let sent := (change ⟨layers ++ limit ++ args⟩).pairs
      resource.Denotes config url ∧
        LimitPairs layers (options.timeout <|> config.timeout) limit ∧
        Url.Form.decode (spec.url.query.getD []) = sent ∧
        (spec.url.query = none ↔ sent = []) ∧
        spec.url = { url with query := spec.url.query } := by
  obtain ⟨url, hurl, hbuild⟩ := exists_of_build hresource h
  obtain ⟨timeout, params, hlimit, hspec⟩ := exists_of_buildAt hbuild
  obtain ⟨limit, hpairs, hparams⟩ := limitPairs_of_applyTimeout hlimit
  have hlayers : (mergeParams config url options).pairs =
      overlay (overlay url.queryPairs config.params.pairs) options.params.pairs := by
    rw [mergeParams, Params.pairs_merge, Params.pairs_merge]
  rw [hlayers] at hpairs
  rw [appendArgs_eq, hparams, hlayers] at hspec
  obtain ⟨hread, hnone⟩ := hspec ▸ read_withParams url (lastChange config options _)
  exact ⟨url, limit, hurl, hpairs, hread, hnone, hspec ▸ rfl⟩

/-- A call takes the place of a key of the URL, and every mark in a value is kept. -/
theorem query_of_command :
    let options : RequestOptions :=
      { params := ⟨[("x", "&=+%#é"), ("", "")]⟩, args := ["a b"], timeout := some (.millis 1500) }
    ∃ spec, build .standard (.path "add?x=1&y=2") options = .ok spec ∧
      Url.Form.decode (spec.url.query.getD []) =
        [("y", "2"), ("x", "&=+%#é"), ("", ""), ("timeout", "1500ms"), ("arg", "a b")] := by
  intro options
  refine ⟨_, rfl, ?_⟩
  obtain ⟨url, limit, hurl, hlimit, hread, -⟩ :=
    @query_of_build .standard (.path "add?x=1&y=2") options _ (by simp) rfl
  obtain rfl := Except.ok.inj hurl
  cases hlimit with
  | zero h => cases h
  | stated h hkey => exact absurd hkey (by decide)
  | told h hkey hvalue =>
    obtain rfl := Except.ok.inj hvalue
    exact hread.trans (by decide)

end RequestSpec

end DaemonRpc

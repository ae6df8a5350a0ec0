import DaemonRpc.Proofs.Request.Query

/-!
# Which parameters win

A parameter of a call takes the place of the defaults that have its key as it is spelled
(`leftDefaults`), and only then are keys brought into kebab case. So a default is sent beside a
parameter of the call if the two are spelled differently and have one kebab-case form
(`RequestSpec.getAll_of_build`). As in `RequestSpec.query_of_build`, no host has a character beyond
ASCII.
-/

namespace DaemonRpc

open Url.Form (Pair)

/-- The values of the pairs whose keys have this kebab-case form. -/
def valuesUnder (key : String) (pairs : List Pair) : List String :=
  (pairs.filter fun pair => Params.kebabKey pair.1 = key).map Prod.snd

/-- The defaults that are left next to the parameters of a call. -/
def leftDefaults (defaults call : List Pair) : List Pair :=
  defaults.filter fun pair => pair.1 ∉ call.map Prod.fst

theorem valuesUnder_append (key : String) (a b : List Pair) :
    valuesUnder key (a ++ b) = valuesUnder key a ++ valuesUnder key b := by
  rw [valuesUnder, List.filter_append, List.map_append]
  rfl

theorem valuesUnder_eq_nil_iff {key : String} {pairs : List Pair} :
    valuesUnder key pairs = [] ↔ ∀ pair ∈ pairs, Params.kebabKey pair.1 ≠ key := by
  simp [valuesUnder, List.filter_eq_nil_iff]

/-- Arguments are sent under one key, which is in kebab case. -/
theorem valuesUnder_args (key : String) (args : List String) :
    valuesUnder key (args.map fun value => ("arg", value)) = if key = "arg" then args else [] := by
  have harg : Params.kebabKey "arg" = "arg" := by decide
  split
  · next hkey =>
    have hall : ∀ pair ∈ args.map fun value => ("arg", value),
        decide (Params.kebabKey pair.1 = key) = true := by simp [harg, hkey]
    rw [valuesUnder, List.filter_eq_self.2 hall, List.map_map]
    exact List.map_id args
  · next hkey =>
    rw [valuesUnder_eq_nil_iff]
    simp [harg, Ne.symm hkey]

/-- In kebab case a key has the values of all its spellings. -/
theorem Params.getAll_kebab (p : Params) (key : String) :
    p.kebab.getAll key = valuesUnder key p.pairs := by
  rw [kebab, mapKeys, getAll, List.filter_map, List.map_map]
  rfl

/-- No default is left under a key of the call if each default that has the kebab-case form of such
a key is also spelled like one. -/
theorem valuesUnder_leftDefaults_iff {defaults call : List Pair} :
    (∀ pair ∈ call, valuesUnder (Params.kebabKey pair.1) (leftDefaults defaults call) = []) ↔
      ∀ default ∈ defaults, ∀ pair ∈ call,
        Params.kebabKey default.1 = Params.kebabKey pair.1 → ∃ same ∈ call, same.1 = default.1 := by
  simp only [valuesUnder_eq_nil_iff, leftDefaults, List.mem_filter, decide_eq_true_eq,
    List.mem_map]
  constructor
  · intro h default hdefault pair hpair hkebab
    by_contra hnone
    exact h pair hpair default ⟨hdefault, hnone⟩ hkebab
  · rintro h pair hpair default ⟨hdefault, hnone⟩ hkebab
    exact hnone (h default hdefault pair hpair hkebab)

namespace RequestSpec

variable {config : ClientConfig} {resource : Resource} {options : RequestOptions}
  {spec : RequestSpec}

/-- Without a query of its own a resource sends the defaults that are left, the parameters of the
call, the time limit and the arguments, in this order and with the last change made. -/
theorem exists_sent_of_build (hresource : ∀ given, resource ≠ .prebuilt given)
    (hquery : ∀ url, resource.Denotes config url → url.query = none)
    (h : build config resource options = .ok spec) :
    let layers := leftDefaults config.params.pairs options.params.pairs ++ options.params.pairs
    ∃ limit, LimitPairs layers (options.timeout <|> config.timeout) limit ∧
      Url.Form.decode (spec.url.query.getD []) = (lastChange config options
        ⟨layers ++ limit ++ options.args.map fun value => ("arg", value)⟩).pairs := by
  obtain ⟨url, hurl, hbuild⟩ := exists_of_build hresource h
  obtain ⟨timeout, params, hlimit, hspec⟩ := exists_of_buildAt hbuild
  obtain ⟨limit, hpairs, hparams⟩ := limitPairs_of_applyTimeout hlimit
  have hown : url.queryPairs = [] := by
    rw [Url.queryPairs, hquery url hurl]
    rfl
  have hlayers : (mergeParams config url options).pairs =
      leftDefaults config.params.pairs options.params.pairs ++ options.params.pairs := by
    rw [mergeParams, Params.pairs_merge, Params.pairs_merge, hown]
    rfl
  rw [hlayers] at hpairs
  rw [appendArgs_eq, hparams, hlayers] at hspec
  refine ⟨limit, hpairs, ?_⟩
  rw [hspec]
  exact (read_withParams url (lastChange config options _)).1

/-- Under the default change of keys the daemon reads, under every key, the values of the defaults
that are left, then those of the call, of the time limit and of the arguments. Under the keys of the
call only the call is heard if and only if each default that comes to such a key is also spelled
like a parameter of the call. -/
theorem getAll_of_build (hresource : ∀ given, resource ≠ .prebuilt given)
    (hquery : ∀ url, resource.Denotes config url → url.query = none)
    (hkebab : config.transformParams = some Params.kebab) (hown : options.transformParams = none)
    (h : build config resource options = .ok spec) :
    let call := options.params.pairs
    let left := leftDefaults config.params.pairs call
    let read := Params.mk (Url.Form.decode (spec.url.query.getD []))
    ∃ limit, LimitPairs (left ++ call) (options.timeout <|> config.timeout) limit ∧
      let rest := fun key => valuesUnder key limit ++ if key = "arg" then options.args else []
      (∀ key, read.getAll key = valuesUnder key left ++ (valuesUnder key call ++ rest key)) ∧
      ((∀ pair ∈ call, ∀ key, Params.kebabKey pair.1 = key →
          read.getAll key = valuesUnder key call ++ rest key) ↔
        ∀ default ∈ config.params.pairs, ∀ pair ∈ call,
          Params.kebabKey default.1 = Params.kebabKey pair.1 →
            ∃ same ∈ call, same.1 = default.1) := by
  intro call left read
  obtain ⟨limit, hlimit, hsent⟩ := exists_sent_of_build hresource hquery h
  refine ⟨limit, hlimit, ?_⟩
  intro rest
  have hread : ∀ key, read.getAll key =
      valuesUnder key left ++ (valuesUnder key call ++ rest key) := by
    intro key
    have hkeys : read = Params.kebab
        ⟨left ++ call ++ limit ++ options.args.map fun value => ("arg", value)⟩ := by
      rw [lastChange, hown, hkebab] at hsent
      exact congrArg Params.mk hsent
    rw [hkeys, Params.getAll_kebab, valuesUnder_append, valuesUnder_append, valuesUnder_append,
      valuesUnder_args, List.append_assoc, List.append_assoc]
  refine ⟨hread, ?_⟩
  -- Nothing is heard before the call exactly if no default is left under the key.
  rw [← valuesUnder_leftDefaults_iff]
  refine forall₂_congr fun pair _ => ?_
  rw [forall_eq', hread, List.append_left_eq_self]

/-- The call is heard alone if a default is spelled as the call spells it. -/
theorem getAll_of_same_spelling :
    ∃ spec, build { ClientConfig.standard with params := ⟨[("cidVersion", "0"), ("pin", "true")]⟩ }
        (.path "add") { params := ⟨[("cidVersion", "1"), ("cid_version", "2")]⟩ } = .ok spec ∧
      (Params.mk (Url.Form.decode (spec.url.query.getD []))).getAll "cid-version" = ["1", "2"] := by
  refine ⟨_, rfl, ?_⟩
  have hquery : ∀ url, (Resource.path "add").Denotes
      { ClientConfig.standard with params := ⟨[("cidVersion", "0"), ("pin", "true")]⟩ } url →
        url.query = none := by
    intro url hurl
    obtain rfl := Except.ok.inj hurl
    rfl
  obtain ⟨limit, hlimit, -, hlaw⟩ := @getAll_of_build _ (.path "add")
    { params := ⟨[("cidVersion", "1"), ("cid_version", "2")]⟩ } _ (by simp) hquery rfl rfl rfl
  cases hlimit
  exact hlaw.2 (by decide) _ List.mem_cons_self _ (by decide)

/-- A default that is spelled in another way than the parameter of the call is sent before it. -/
theorem default_beside_call :
    let config := { ClientConfig.standard with params := ⟨[("cid_version", "0")]⟩ }
    let options : RequestOptions := { params := ⟨[("cidVersion", "1")]⟩ }
    config.transformParams = some Params.kebab ∧ options.transformParams = none ∧
      (∀ url, (Resource.path "add").Denotes config url → url.query = none) ∧
      Params.kebabKey "cidVersion" = "cid-version" ∧
      ∃ spec, build config (.path "add") options = .ok spec ∧
        (Params.mk (Url.Form.decode (spec.url.query.getD []))).getAll "cid-version" =
          ["0", "1"] := by
  refine ⟨rfl, rfl, ?_, by decide, _, rfl, by decide +kernel⟩
  intro url hurl
  obtain rfl := Except.ok.inj hurl
  rfl

end RequestSpec

end DaemonRpc

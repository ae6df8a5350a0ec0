import Mathlib.Data.List.Basic
import DaemonRpc.Proofs.Json.ReadBack
import DaemonRpc.Proofs.Request.Building
import DaemonRpc.Proofs.Url.FormReading

/-!
# The header fields of a request

Header fields map a name, in whatever letter case, to its values (`Headers.IsMap`,
`Headers.under`). They are made by inserting values, which take the place of those before, and by
appending values (`Headers.ofEdits`). Overlaying replaces all values of every name that the upper
fields carry and leaves the others (`Headers.under_extend`), so a request carries the fields of its
call and, under other names, the defaults (`RequestSpec.fields_of_build`). Who receives a value of
JSON as the body reads this value again (`RequestSpec.parse_body_of_build`).
-/

namespace DaemonRpc

/-- The lower-case form of a character is its own lower-case form. -/
theorem Text.lowerAscii_lowerAscii (c : Char) : lowerAscii (lowerAscii c) = lowerAscii c := by
  by_cases hcapital : 'A' ≤ c ∧ c ≤ 'Z'
  · have hhigh : c.toNat ≤ 'Z'.toNat := hcapital.2
    have hsmall : c.toNat < 128 := Nat.lt_of_le_of_lt hhigh (by decide)
    have hletter : ∀ c : Char, c.toNat < 128 → lowerAscii (lowerAscii c) = lowerAscii c :=
      Text.forall_ascii (by decide +kernel)
    exact hletter c hsmall
  · have hself : lowerAscii c = c := if_neg hcapital
    rw [hself, hself]

namespace Headers

theorem toList_canonicalName (name : String) :
    (canonicalName name).toList = name.toList.map Text.lowerAscii :=
  String.toList_map

theorem canonicalName_eq_iff {name kept : String} :
    canonicalName name = kept ↔ name.toList.map Text.lowerAscii = kept.toList := by
  rw [← String.toList_inj, toList_canonicalName]

theorem canonicalName_canonicalName (name : String) :
    canonicalName (canonicalName name) = canonicalName name := by
  rw [canonicalName_eq_iff, toList_canonicalName, List.map_map]
  exact List.map_congr_left fun c _ => Text.lowerAscii_lowerAscii c

theorem canonicalName_contentType : canonicalName "content-type" = "content-type" :=
  canonicalName_eq_iff.2 (by decide)

/-! ## Fields as a map -/

section Maps

variable {other upper : Headers} {name : String} {values : List HeaderValue} {f : HeaderField}
  {fields : List HeaderField}

/-- Every name is in the form in which names are kept, occurs once and has a value. -/
structure IsMap (h : Headers) : Prop where
  canonical : ∀ f ∈ h.fields, canonicalName f.name = f.name
  distinct : (h.fields.map (·.name)).Nodup
  filled : ∀ f ∈ h.fields, f.values ≠ []

/-- The values under a name, in whatever letter case, in their order. -/
def under (h : Headers) (name : String) : List HeaderValue :=
  (h.toList.filter fun pair => canonicalName pair.1 = canonicalName name).map Prod.snd

theorem isMap_empty : IsMap {} where
  canonical := by simp
  distinct := List.nodup_nil
  filled := by simp

theorem isMap_cons_iff :
    IsMap ⟨f :: fields⟩ ↔ (canonicalName f.name = f.name ∧ f.values ≠ []) ∧
      (∀ g ∈ fields, g.name ≠ f.name) ∧ IsMap ⟨fields⟩ := by
  constructor
  · rintro ⟨hcanonical, hdistinct, hfilled⟩
    obtain ⟨hname, hcanonical⟩ := List.forall_mem_cons.1 hcanonical
    obtain ⟨hvalues, hfilled⟩ := List.forall_mem_cons.1 hfilled
    obtain ⟨hnew, hdistinct⟩ := List.nodup_cons.1 hdistinct
    exact ⟨⟨hname, hvalues⟩, fun g hg heq => hnew (List.mem_map.2 ⟨g, hg, heq⟩),
      hcanonical, hdistinct, hfilled⟩
  · rintro ⟨⟨hname, hvalues⟩, hnew, hcanonical, hdistinct, hfilled⟩
    refine ⟨List.forall_mem_cons.2 ⟨hname, hcanonical⟩, List.nodup_cons.2 ⟨?_, hdistinct⟩,
      List.forall_mem_cons.2 ⟨hvalues, hfilled⟩⟩
    intro hmem
    obtain ⟨g, hg, heq⟩ := List.mem_map.1 hmem
    exact hnew g hg heq

theorem under_cons (f : HeaderField) (fields : List HeaderField) (name : String) :
    under ⟨f :: fields⟩ name =
      (if canonicalName f.name = canonicalName name then f.values else []) ++
        under ⟨fields⟩ name := by
  rw [under, toList, List.flatMap_cons, List.filter_append, List.map_append, List.filter_map,
    List.map_map]
  congr 1
  split <;> simp_all [Function.comp_def]

theorem getAll_cons (f : HeaderField) (fields : List HeaderField) (name : String) :
    getAll ⟨f :: fields⟩ name = if f.name = name then f.values else getAll ⟨fields⟩ name := by
  by_cases hname : f.name = name <;> simp [getAll, hname]

theorem getAll_eq_nil (hfields : ∀ g ∈ fields, g.name ≠ name) : getAll ⟨fields⟩ name = [] := by
  have hnone : fields.find? (fun g => g.name == name) = none := by simpa using hfields
  rw [getAll, hnone]
  rfl

/-- In a map the values under a name are those of its only field. -/
theorem IsMap.under_eq (h : IsMap other) (name : String) :
    other.under name = other.getAll (canonicalName name) := by
  obtain ⟨fields⟩ := other
  induction fields with
  | nil => rfl
  | cons f fields ih =>
    obtain ⟨⟨hname, -⟩, hnew, hrest⟩ := isMap_cons_iff.1 h
    rw [under_cons, getAll_cons, hname, ih hrest]
    split
    · next heq => rw [getAll_eq_nil (heq ▸ hnew), List.append_nil]
    · rfl

/-! ## Putting and overlaying -/

/-- No other name comes in by putting values under one. -/
theorem name_of_mem_putField {g : HeaderField} (hg : g ∈ putField name values fields) :
    g = ⟨name, values⟩ ∨ g ∈ fields := by
  induction fields with
  | nil => exact .inl (List.mem_singleton.1 hg)
  | cons f rest ih =>
    rw [putField] at hg
    split at hg
    · exact (List.mem_cons.1 hg).imp_right (List.mem_cons_of_mem f)
    · rcases List.mem_cons.1 hg with rfl | hg
      · exact .inr List.mem_cons_self
      · exact (ih hg).imp_right (List.mem_cons_of_mem f)

theorem IsMap.put (h : IsMap other) (hname : canonicalName name = name) (hvalues : values ≠ []) :
    (other.put name values).IsMap := by
  obtain ⟨fields⟩ := other
  simp only [Headers.put]
  induction fields with
  | nil => exact isMap_cons_iff.2 ⟨⟨hname, hvalues⟩, by simp, isMap_empty⟩
  | cons f rest ih =>
    obtain ⟨hf, hnew, hrest⟩ := isMap_cons_iff.1 h
    rw [putField]
    split
    · next heq => exact isMap_cons_iff.2 ⟨⟨hname, hvalues⟩, heq ▸ hnew, hrest⟩
    · next hne =>
      refine isMap_cons_iff.2 ⟨hf, fun g hg => ?_, ih hrest⟩
      rcases name_of_mem_putField hg with rfl | hg
      · exact Ne.symm hne
      · exact hnew g hg

theorem IsMap.extend (h : IsMap other) (hupper : IsMap upper) :
    (other.extend upper).IsMap := by
  obtain ⟨fields⟩ := upper
  simp only [Headers.extend]
  induction fields generalizing other with
  | nil => exact h
  | cons f rest ih =>
    obtain ⟨⟨hname, hvalues⟩, -, hrest⟩ := isMap_cons_iff.1 hupper
    exact ih (h.put hname hvalues) hrest

/-- Overlaid with other fields, a name has their values if they have it. -/
theorem getAll_extend (h : Headers) (hupper : IsMap upper) (name : String) :
    (h.extend upper).getAll name =
      if upper.getAll name = [] then h.getAll name else upper.getAll name := by
  obtain ⟨fields⟩ := upper
  simp only [extend]
  induction fields generalizing h with
  | nil => rfl
  | cons f rest ih =>
    obtain ⟨⟨-, hvalues⟩, hnew, hrest⟩ := isMap_cons_iff.1 hupper
    rw [List.foldl_cons, ih _ hrest, getAll_put, getAll_cons]
    by_cases hname : f.name = name
    · -- The fields behind do not have this name again.
      rw [getAll_eq_nil (hname ▸ hnew), if_pos rfl, if_pos hname, if_pos hname, if_neg hvalues]
    · rw [if_neg hname, if_neg hname]

theorem under_extend (h : IsMap other) (hupper : IsMap upper) (name : String) :
    (other.extend upper).under name =
      if upper.under name = [] then other.under name else upper.under name := by
  rw [(h.extend hupper).under_eq, hupper.under_eq, h.under_eq, getAll_extend other hupper]

end Maps

/-! ## Fields that are inserted and appended -/

/-- A value that is given under a name, in whatever letter case. -/
inductive Edit where
  /-- In place of the values before. -/
  | insert (name : String) (value : HeaderValue)
  /-- Behind the values before. -/
  | append (name : String) (value : HeaderValue)

namespace Edit

/-- The name under which a value is given. -/
def name : Edit → String
  | insert name _ | append name _ => name

/-- The values of the name with the one that is given. -/
def onValues (values : List HeaderValue) : Edit → List HeaderValue
  | insert _ value => [value]
  | append _ value => values ++ [value]

end Edit

/-- The fields with a value that is given. -/
def edit (h : Headers) : Edit → Headers
  | .insert name value => h.insert (canonicalName name) value
  | .append name value => h.append (canonicalName name) value

/-- The fields that are given one behind the other. -/
def ofEdits (edits : List Edit) : Headers := edits.foldl edit {}

/-- What was given under a name, in whatever letter case: the last value that was inserted, if any,
and what was appended behind it. -/
def given (name : String) (edits : List Edit) : List HeaderValue :=
  (edits.filter fun e => canonicalName e.name = canonicalName name).foldl Edit.onValues []

theorem edit_eq (h : Headers) (e : Edit) :
    h.edit e = h.put (canonicalName e.name) (e.onValues (h.getAll (canonicalName e.name))) := by
  cases e with
  | insert name value => rfl
  | append name value => rfl

theorem IsMap.edit {other : Headers} (h : IsMap other) (e : Edit) : (other.edit e).IsMap := by
  rw [edit_eq]
  refine h.put (canonicalName_canonicalName _) ?_
  cases e <;> simp [Edit.onValues]

/-- A value changes what is under its own name. -/
theorem under_edit {other : Headers} (h : IsMap other) (e : Edit) (name : String) :
    (other.edit e).under name =
      if canonicalName e.name = canonicalName name then e.onValues (other.under name)
      else other.under name := by
  rw [(h.edit e).under_eq, edit_eq, getAll_put, h.under_eq]
  split
  · next hname => rw [hname]
  · rfl

/-- What is given one behind the other makes a map, with exactly the values that were given. -/
theorem isMap_ofEdits (edits : List Edit) :
    (ofEdits edits).IsMap ∧ ∀ name, (ofEdits edits).under name = given name edits := by
  -- The induction is on what is given, over all fields to which it is added.
  have hfrom : ∀ (edits : List Edit) (h : Headers), h.IsMap → (edits.foldl edit h).IsMap ∧
      ∀ name, (edits.foldl edit h).under name =
        (edits.filter fun e => canonicalName e.name = canonicalName name).foldl Edit.onValues
          (h.under name) := by
    intro edits
    induction edits with
    | nil => exact fun h hmap => ⟨hmap, fun _ => rfl⟩
    | cons e edits ih =>
      intro h hmap
      obtain ⟨hall, hunder⟩ := ih (h.edit e) (hmap.edit e)
      refine ⟨hall, fun name => ?_⟩
      rw [List.foldl_cons, hunder, under_edit hmap, List.filter_cons]
      by_cases hname : canonicalName e.name = canonicalName name <;> simp [hname]
  exact hfrom edits {} isMap_empty

end Headers

/-! ## Requests -/

namespace RequestSpec

variable {config : ClientConfig} {url : Url} {resource : Resource} {options : RequestOptions}
  {spec : RequestSpec}

theorem applyBody_raw (headers : Headers) (h : options.json = none) :
    applyBody options headers = (options.body.getD .empty, headers) := by
  rw [applyBody, h]

/-- A body of JSON comes with its type. -/
theorem applyBody_json (headers : Headers) {value : Json.Value} (h : options.json = some value) :
    applyBody options headers = (.bytes (Utf8.encode value.write),
      headers.edit (.insert "content-type" jsonType)) := by
  rw [applyBody, h, Headers.edit, Headers.canonicalName_contentType]

/-- The body and the header fields of a request do not depend on its URL. -/
theorem applyBody_of_buildAt (h : buildAt config url options = .ok spec) :
    spec.body = (applyBody options (config.headers.extend options.headers)).1 ∧
      spec.headers = (applyBody options (config.headers.extend options.headers)).2 := by
  obtain ⟨limit, -, rfl⟩ := exists_limit_of_buildAt h
  exact ⟨rfl, rfl⟩

/-- A value of JSON without floating numbers is read back from the body of its request. -/
theorem parse_body_of_build (hresource : ∀ given, resource ≠ .prebuilt given)
    (h : build config resource options = .ok spec) {value : Json.Value}
    (hjson : options.json = some value) (hplain : value.IsPlain Json.maxDepth) :
    ∃ octets, spec.body = .bytes octets ∧ Json.parse octets = .ok value := by
  obtain ⟨url, -, hbuild⟩ := exists_of_build hresource h
  obtain ⟨hbody, -⟩ := applyBody_of_buildAt hbuild
  rw [applyBody_json _ hjson] at hbody
  exact ⟨_, hbody, hplain.parse_write⟩

/-- A request carries, under every name, the values of its call if the call has any, and else the
default ones, all of them and in their order, and nothing under other names. With a body of JSON the
type of the content is JSON alone, and the body is this value and no other. Fields are maps however
their values were inserted and appended. -/
theorem fields_of_build (hresource : ∀ given, resource ≠ .prebuilt given)
    (hconfig : config.headers.IsMap) (hoptions : options.headers.IsMap)
    (h : build config resource options = .ok spec) :
    spec.headers.IsMap ∧
    (∀ name, spec.headers.under name =
      if options.json.isSome ∧ Headers.canonicalName name = "content-type" then [jsonType]
      else if options.headers.under name = [] then config.headers.under name
      else options.headers.under name) ∧
    (spec.body = match options.json with
      | some value => .bytes (Utf8.encode value.write)
      | none => options.body.getD .empty) ∧
    ∀ edits, (Headers.ofEdits edits).IsMap ∧
      ∀ name, (Headers.ofEdits edits).under name = Headers.given name edits := by
  obtain ⟨url, -, hbuild⟩ := exists_of_build hresource h
  obtain ⟨hbody, hheaders⟩ := applyBody_of_buildAt hbuild
  have hmerged := hconfig.extend hoptions
  have hunder := Headers.under_extend hconfig hoptions
  cases hjson : options.json with
  | none =>
    simp only [applyBody_raw _ hjson] at hbody hheaders
    rw [hbody, hheaders]
    exact ⟨hmerged, fun name => by simpa using hunder name, rfl, Headers.isMap_ofEdits⟩
  | some value =>
    simp only [applyBody_json _ hjson] at hbody hheaders
    rw [hbody, hheaders]
    refine ⟨hmerged.edit _, fun name => ?_, rfl, Headers.isMap_ofEdits⟩
    -- Of the fields that were merged, only those under this one name are replaced.
    rw [Headers.under_edit hmerged, hunder, Headers.Edit.name, Headers.canonicalName_contentType]
    by_cases hname : Headers.canonicalName name = "content-type"
    · simp [hname, Headers.Edit.onValues]
    · simp [hname, Ne.symm hname]

/-- The values of a call come in the place of the default one, however the name is spelled, and a
value of JSON in the place of a body of octets. -/
theorem fields_of_command :
    ∃ spec, build
        { ClientConfig.standard with headers := .ofEdits [.append "A" [65], .append "b" [66]] }
        (.path "add")
        { headers := .ofEdits [.insert "B" [67], .append "b" [68], .append "content-type" [69]],
          json := some (.object
            [("a", .array [.null, .bool true, .number (.integer (-12)), .string "é\"\n"]),
              ("b", .object [])]),
          body := some (.bytes [70]) } = .ok spec ∧
      spec.headers.under "a" = [[65]] ∧ spec.headers.under "b" = [[67], [68]] ∧
      spec.headers.under "Content-Type" = [jsonType] ∧
      spec.body = .bytes
        (Utf8.ofString "\x7b\"a\":[null,true,-12,\"é\\\"\\n\"],\"b\":\x7b\x7d\x7d") := by
  refine Exists.imp (fun spec hspec => ⟨hspec, ?_⟩) ⟨_, rfl⟩
  obtain ⟨hconfig, hdefault⟩ := Headers.isMap_ofEdits [.append "A" [65], .append "b" [66]]
  obtain ⟨hoptions, hcall⟩ := Headers.isMap_ofEdits
    [.insert "B" [67], .append "b" [68], .append "content-type" [69]]
  obtain ⟨-, hunder, hbody, -⟩ := fields_of_build (by simp) hconfig hoptions hspec
  simp only [hdefault, hcall, Headers.given, Headers.canonicalName_eq_iff,
    Headers.toList_canonicalName] at hunder
  exact ⟨(hunder _).trans (by decide), (hunder _).trans (by decide), (hunder _).trans (by decide),
    hbody.trans (congrArg RequestBody.bytes (by decide))⟩

end RequestSpec

end DaemonRpc

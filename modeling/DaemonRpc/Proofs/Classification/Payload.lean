import DaemonRpc.Classification
import DaemonRpc.Proofs.Json.Records

/-!
# Payloads of failures

What a text must hold in order to be read as a message of the daemon: an object whose members name
the text and the code at most once each, with a capital or without, or a list of the two. The
members of other names do not matter. `DaemonMessage.parse_eq_ok_iff` says that these texts, and
no others, are read.
-/

namespace DaemonRpc

open Json

namespace DaemonMessage

/-! ## Members -/

/-- A member of an object that reports a failure. -/
inductive Member where
  /-- It gives the text, or null. -/
  | text (given : Option String)
  /-- It gives the code, or null. -/
  | code (given : Option Int)
  /-- Nobody asked for it. -/
  | other
  deriving DecidableEq, Repr

/-- What the members give as the text, in order. -/
def givenTexts (members : List Member) : List (Option String) :=
  members.filterMap fun
    | .text given => some given
    | _ => none

/-- What the members give as the code, in order. -/
def givenCodes (members : List Member) : List (Option Int) :=
  members.filterMap fun
    | .code given => some given
    | _ => none

/-- Behind the opening quotation mark of its key the octets go on with this member. -/
inductive Member.IsWritten (octets : List UInt8) : Member → List UInt8 → Prop where
  | text {key : String} {given : Option String} {after value rest : List UInt8}
      (hkey : Takes readString octets key after) (hname : key = "Message" ∨ key = "message")
      (hcolon : Mark ':' after value) (hvalue : Nullable Decoder.string value given rest) :
      IsWritten octets (.text given) rest
  | code {key : String} {given : Option Int} {after value rest : List UInt8}
      (hkey : Takes readString octets key after) (hname : key = "Code" ∨ key = "code")
      (hcolon : Mark ':' after value) (hvalue : Nullable Decoder.int64 value given rest) :
      IsWritten octets (.code given) rest
  | other {key : String} {after value rest : List UInt8}
      (hkey : Takes readString octets key after)
      (hname : key ∉ ["Message", "message", "Code", "code"])
      (hcolon : Mark ':' after value) (hvalue : Takes skipValue value () rest) :
      IsWritten octets .other rest

/-- The octets report a failure: an object that names the text and the code at most once each, or
a list of the two, with nothing but blanks around. What is not named, or null, is not given. -/
inductive Payload (octets : List UInt8) : DaemonMessage → Prop where
  | object {members : List Member} {text : Option (Option String)} {code : Option (Option Int)}
      {inner rest : List UInt8} (hopen : Mark '\x7b' octets inner)
      (hmembers : Members Member.IsWritten true inner members rest)
      (htext : givenTexts members = text.toList) (hcode : givenCodes members = code.toList)
      (hend : AllSeparators rest) :
      Payload octets ⟨text.join, code.join⟩
  | list {text : Option String} {code : Option Int}
      {inner behindText beforeCode behindCode rest : List UInt8} (hopen : Mark '[' octets inner)
      (htext : Nullable Decoder.string inner text behindText)
      (hcomma : Mark ',' behindText beforeCode)
      (hcode : Nullable Decoder.int64 beforeCode code behindCode)
      (hclose : Mark ']' behindCode rest) (hend : AllSeparators rest) :
      Payload octets ⟨text, code⟩

/-! ## The record that is read -/

/-- The field of the text. -/
def textField : Json.Field DaemonMessage :=
  .optional ["Message", "message"] .string fun text m => { m with text }

/-- The field of the code. -/
def codeField : Json.Field DaemonMessage :=
  .optional ["Code", "code"] .int64 fun code m => { m with code }

theorem fields_record : record.fields = [textField, codeField] := rfl

theorem isScalar_int64 : Decoder.int64.IsScalar := isScalar_integer _ _ _

theorem isListed_fields : ∀ f ∈ record.fields, f.IsListed := by
  intro f hf
  rw [fields_record, List.mem_cons, List.mem_singleton] at hf
  rcases hf with rfl | rfl
  · exact Field.isListed_optional isScalar_string _ _
  · exact Field.isListed_optional isScalar_int64 _ _

theorem takes_textField_iff {octets rest : List UInt8} {set : DaemonMessage → DaemonMessage} :
    Takes textField.decoder.ofText octets set rest ↔
      ∃ given, Nullable Decoder.string octets given rest ∧
        (fun m : DaemonMessage => { m with text := given }) = set := by
  rw [textField, Field.optional, takes_map_iff (steady_optional isScalar_string.steady)]
  simp only [takes_optional_iff isScalar_string]

theorem takes_codeField_iff {octets rest : List UInt8} {set : DaemonMessage → DaemonMessage} :
    Takes codeField.decoder.ofText octets set rest ↔
      ∃ given, Nullable Decoder.int64 octets given rest ∧
        (fun m : DaemonMessage => { m with code := given }) = set := by
  rw [codeField, Field.optional, takes_map_iff (steady_optional isScalar_int64.steady)]
  simp only [takes_optional_iff isScalar_int64]

theorem field?_record (key : String) :
    record.field? key =
      if key = "Message" ∨ key = "message" then some textField
      else if key = "Code" ∨ key = "code" then some codeField
      else none := by
  have htext : textField.names.contains key = decide (key = "Message" ∨ key = "message") := by
    simp [textField, Field.optional]
  have hcode : codeField.names.contains key = decide (key = "Code" ∨ key = "code") := by
    simp [codeField, Field.optional]
  rw [Record.field?, fields_record, List.find?_cons, List.find?_cons, htext, hcode]
  split <;> split <;> simp_all

/-! ## What members do to the record -/

/-- The change that a member makes. -/
def Member.change : Member → Change DaemonMessage
  | .text given => some ("Message", fun m => { m with text := given })
  | .code given => some ("Code", fun m => { m with code := given })
  | .other => none

theorem Member.IsWritten.isMember {octets rest : List UInt8} {member : Member}
    (h : member.IsWritten octets rest) : record.IsMember octets member.change rest := by
  cases h with
  | text hkey hname hcolon hvalue =>
    exact .known (f := textField) hkey (by rw [field?_record, if_pos hname]) hcolon
      (takes_textField_iff.2 ⟨_, hvalue, rfl⟩)
  | code hkey hname hcolon hvalue =>
    refine .known (f := codeField) hkey ?_ hcolon (takes_codeField_iff.2 ⟨_, hvalue, rfl⟩)
    rw [field?_record, if_neg (by rcases hname with rfl | rfl <;> decide), if_pos hname]
  | other hkey hname hcolon hvalue =>
    refine .unknown hkey ?_ hcolon hvalue
    rw [field?_record, if_neg (by simp_all), if_neg (by simp_all)]

theorem exists_isWritten_of_isMember {octets rest : List UInt8} {change : Change DaemonMessage}
    (h : record.IsMember octets change rest) :
    ∃ member : Member, member.IsWritten octets rest ∧ member.change = change := by
  cases h with
  | unknown hkey hfield hcolon hvalue =>
    rw [field?_record] at hfield
    refine ⟨.other, .other hkey ?_ hcolon hvalue, rfl⟩
    split at hfield
    · cases hfield
    split at hfield
    · cases hfield
    simp_all
  | known hkey hfield hcolon hvalue =>
    rw [field?_record] at hfield
    split at hfield
    · next hname =>
      cases hfield
      obtain ⟨given, hgiven, rfl⟩ := takes_textField_iff.1 hvalue
      exact ⟨.text given, .text hkey hname hcolon hgiven, rfl⟩
    split at hfield
    · next hname =>
      cases hfield
      obtain ⟨given, hgiven, rfl⟩ := takes_codeField_iff.1 hvalue
      exact ⟨.code given, .code hkey hname hcolon hgiven, rfl⟩
    · cases hfield

/-- A member is told by the change that it makes. -/
theorem Member.change_injective {member member' : Member}
    (h : member.change = member'.change) : member = member' := by
  cases member <;> cases member' <;>
    simp only [change, Option.some.injEq, Prod.mk.injEq, reduceCtorEq] at h
  · exact congrArg Member.text (congrArg DaemonMessage.text (congrFun h.2 {}))
  · exact absurd h.1 (by decide)
  · exact absurd h.1 (by decide)
  · exact congrArg Member.code (congrArg DaemonMessage.code (congrFun h.2 {}))
  · rfl

/-- What is given last is in the record. -/
theorem foldl_change (members : List Member) (m : DaemonMessage) :
    (members.map Member.change).foldl Change.apply m =
      ⟨(givenTexts members).getLast?.getD m.text, (givenCodes members).getLast?.getD m.code⟩ := by
  induction members generalizing m with
  | nil => rfl
  | cons member members ih =>
    rw [List.map_cons, List.foldl_cons, ih]
    cases member <;> simp [Member.change, Change.apply, givenTexts, givenCodes, List.getLast?_cons]

/-- Each field is changed as often as it is given. -/
theorem count_changedNames (members : List Member) :
    (changedNames (members.map Member.change)).count "Message" = (givenTexts members).length ∧
      (changedNames (members.map Member.change)).count "Code" = (givenCodes members).length := by
  induction members with
  | nil => exact ⟨rfl, rfl⟩
  | cons member members ih =>
    cases member <;> simp_all [changedNames, Member.change, givenTexts, givenCodes]

/-- No field is changed twice exactly if the text and the code are given at most once each. -/
theorem nodup_changedNames_iff (members : List Member) :
    (changedNames (members.map Member.change)).Nodup ↔
      (givenTexts members).length ≤ 1 ∧ (givenCodes members).length ≤ 1 := by
  obtain ⟨htexts, hcodes⟩ := count_changedNames members
  -- No member changes a field of another name.
  rw [List.nodup_iff_count_le_one, ← htexts, ← hcodes]
  refine ⟨fun h => ⟨h _, h _⟩, fun ⟨htext, hcode⟩ name => ?_⟩
  by_cases hmem : name ∈ changedNames (members.map Member.change)
  · have hname : name = "Message" ∨ name = "Code" := by
      simp only [changedNames, List.mem_filterMap, List.mem_map] at hmem
      obtain ⟨_, ⟨member, -, rfl⟩, hname⟩ := hmem
      cases member <;> simp_all [Member.change]
    rcases hname with rfl | rfl
    · exact htext
    · exact hcode
  · rw [List.count_eq_zero_of_not_mem hmem]
    exact Nat.zero_le 1

theorem exists_toList_of_length_le_one {α : Type} {l : List α} (h : l.length ≤ 1) :
    ∃ a : Option α, l = a.toList := by
  match l, h with
  | [], _ => exact ⟨none, rfl⟩
  | [a], _ => exact ⟨some a, rfl⟩

/-! ## Texts that are read -/

theorem payload_of_isText {octets : List UInt8} {m : DaemonMessage}
    (h : record.IsText octets m) : Payload octets m := by
  cases h with
  | @object changes inner rest hopen hmembers hnodup _ hend =>
    obtain ⟨members, hwritten, rfl⟩ := hmembers.exists_map fun _ _ _ => exists_isWritten_of_isMember
    obtain ⟨htexts, hcodes⟩ := (nodup_changedNames_iff members).1 hnodup
    obtain ⟨text, htext⟩ := exists_toList_of_length_le_one htexts
    obtain ⟨code, hcode⟩ := exists_toList_of_length_le_one hcodes
    have hm : (members.map Member.change).foldl Change.apply record.initial =
        ⟨text.join, code.join⟩ := by
      rw [foldl_change, htext, hcode]
      cases text <;> cases code <;> rfl
    rw [hm]
    exact .object hopen hwritten htext hcode hend
  | list hopen helements hclose hend =>
    rw [fields_record] at helements
    obtain _ | ⟨hfirst, hfieldText, _ | ⟨hcomma, hfieldCode, _ | _⟩⟩ := helements
    obtain ⟨text, htext, rfl⟩ := takes_textField_iff.1 hfieldText
    obtain ⟨code, hcode, rfl⟩ := takes_codeField_iff.1 hfieldCode
    obtain rfl := show _ = _ from hfirst
    exact .list hopen htext hcomma hcode hclose hend

theorem isText_of_payload {octets : List UInt8} {m : DaemonMessage} (h : Payload octets m) :
    record.IsText octets m := by
  cases h with
  | @object members text code inner rest hopen hmembers htext hcode hend =>
    have hm : (members.map Member.change).foldl Change.apply record.initial =
        ⟨text.join, code.join⟩ := by
      rw [foldl_change, htext, hcode]
      cases text <;> cases code <;> rfl
    have hnodup : (changedNames (members.map Member.change)).Nodup := by
      rw [nodup_changedNames_iff, htext, hcode]
      cases text <;> cases code <;> simp
    rw [← hm]
    refine .object hopen (hmembers.map fun _ _ _ => Member.IsWritten.isMember) hnodup ?_ hend
    -- Neither field is needed in an object.
    intro f hf hneeded
    rw [fields_record, List.mem_cons, List.mem_singleton] at hf
    rcases hf with rfl | rfl <;> cases hneeded
  | list hopen htext hcomma hcode hclose hend =>
    have helements : Record.Elements true record.fields _ _ _ :=
      .element rfl (takes_textField_iff.2 ⟨_, htext, rfl⟩)
        (.element hcomma (takes_codeField_iff.2 ⟨_, hcode, rfl⟩) .nil)
    exact .list hopen helements hclose hend

/-- A text is read as a message exactly if it is a payload with this message. -/
theorem parse_eq_ok_iff {octets : List UInt8} {m : DaemonMessage} :
    DaemonMessage.parse octets = .ok m ↔ Payload octets m := by
  rw [DaemonMessage.parse, Record.parse_eq_ok_iff isListed_fields]
  exact ⟨payload_of_isText, isText_of_payload⟩

example : DaemonMessage.parse (Utf8.ofString " [\"gone\", null] ") = .ok ⟨some "gone", none⟩ := rfl

theorem parse_eq_error_iff {octets : List UInt8} :
    (∃ failure, DaemonMessage.parse octets = .error failure) ↔ ∀ m, ¬ Payload octets m := by
  simp only [← parse_eq_ok_iff]
  cases DaemonMessage.parse octets <;> simp

/-! ## Texts that are refused -/

/-- Octets go on with one member at most. -/
theorem Member.IsWritten.unique {octets rest rest' : List UInt8} {member member' : Member}
    (h : member.IsWritten octets rest) (h' : member'.IsWritten octets rest') :
    member = member' ∧ rest = rest' := by
  obtain ⟨hchange, hrest⟩ := h.isMember.unique h'.isMember
  exact ⟨Member.change_injective hchange, hrest⟩

/-- An object that names the text or the code twice is refused, whatever else it holds. -/
theorem not_payload_of_repeated {octets inner rest : List UInt8} {members : List Member}
    (hopen : Mark '\x7b' octets inner)
    (hmembers : Members Member.IsWritten true inner members rest)
    (h : 1 < (givenTexts members).length ∨ 1 < (givenCodes members).length) (m : DaemonMessage) :
    ¬ Payload octets m := by
  intro hpayload
  cases hpayload with
  | object hopen' hmembers' htext hcode _ =>
    -- The members of the payload are the ones that are given.
    obtain rfl := (hopen.unique hopen' (by decide) (by decide)).2
    obtain rfl := hmembers.unique (fun _ _ _ h _ _ h' => h.unique h') hmembers'
    rw [htext, hcode] at h
    exact absurd h (by simp [Option.length_toList_le])
  | list hopen' =>
    exact absurd (hopen.unique hopen' (by decide) (by decide)).1 (by decide)

end DaemonMessage

end DaemonRpc

import DaemonRpc.Text.Utf8

/-!
# Looking for octets that are not UTF-8

`check` reads octets up to the first place where they are not well formed. It tells octets that no
later octet can mend from an input that ends inside a sequence.
-/

namespace DaemonRpc.Utf8

/-- What is found in octets. -/
inductive Finding where
  | wellFormed
  /-- After `valid` octets of whole sequences come `bad` octets that make a malformed part. -/
  | malformed (valid bad : Nat)
  /-- After `valid` octets of whole sequences the input ends inside a sequence. -/
  | incomplete (valid : Nat)
  deriving DecidableEq, Repr

/-- Check octets that come after `valid` octets of whole sequences and after `held`, the octets of
a sequence that is not finished. -/
def checkFrom (valid : Nat) (held : List UInt8) : List UInt8 → Finding
  | [] => if held.isEmpty then .wellFormed else .incomplete valid
  | octet :: octets =>
    if held.isEmpty then
      match width octet with
      | none => .malformed valid 1
      | some 1 => checkFrom (valid + 1) [] octets
      | some _ => checkFrom valid [octet] octets
    else if continues held octet then
      let grown := held ++ [octet]
      if isWhole grown then checkFrom (valid + grown.length) [] octets
      else checkFrom valid grown octets
    else
      -- The octet itself may lead a sequence, so it is no part of what is malformed.
      .malformed valid held.length

/-- Check a whole input. -/
def check (octets : List UInt8) : Finding := checkFrom 0 [] octets

/-- A malformed part has an octet. -/
theorem pos_of_checkFrom {n valid bad : Nat} {held octets : List UInt8}
    (h : checkFrom n held octets = .malformed valid bad) : 0 < bad := by
  fun_induction checkFrom n held octets with
  | case1 | case2 => simp at h
  | case3 n held octet octets hheld hw =>
    obtain ⟨-, rfl⟩ := Finding.malformed.inj h
    exact Nat.one_pos
  | case4 | case5 | case6 | case7 => next ih => exact ih h
  | case8 n held octet octets hheld hc =>
    obtain ⟨-, rfl⟩ := Finding.malformed.inj h
    exact List.length_pos_iff.2 (by simpa using hheld)

end DaemonRpc.Utf8

import DaemonRpc.Text.Utf8

/-!
# Well-formed octet sequences

The octet machine of `Text.Utf8` decides with three tables (`width`, `secondRange`, `continues`)
which octets it holds. Here these tables are tied to how characters are written:

* `isSequence_encode` and `encode_assemble`: a list of octets follows the tables exactly if some
  character is written so, and `assemble` reads that character back;
* `begins_iff`: a list of octets begins the sequence of some character exactly if the tables let
  it be held or whole;
* `begins_concat_iff`: an octet carries on what is held exactly if some character begins with both.
-/

namespace DaemonRpc.Utf8

/-! ## The tables as bounds on numbers -/

theorem width_eq_one_iff {lead : UInt8} : width lead = some 1 ↔ lead.toNat < 0x80 := by
  simp only [width, UInt8.lt_iff_toNat_lt, UInt8.reduceToNat]
  grind

theorem width_eq_two_iff {lead : UInt8} :
    width lead = some 2 ↔ 0xC2 ≤ lead.toNat ∧ lead.toNat < 0xE0 := by
  simp only [width, UInt8.lt_iff_toNat_lt, UInt8.reduceToNat]
  grind

theorem width_eq_three_iff {lead : UInt8} :
    width lead = some 3 ↔ 0xE0 ≤ lead.toNat ∧ lead.toNat < 0xF0 := by
  simp only [width, UInt8.lt_iff_toNat_lt, UInt8.reduceToNat]
  grind

theorem width_eq_four_iff {lead : UInt8} :
    width lead = some 4 ↔ 0xF0 ≤ lead.toNat ∧ lead.toNat < 0xF5 := by
  simp only [width, UInt8.lt_iff_toNat_lt, UInt8.reduceToNat]
  grind

/-- Sequences have one to four octets. -/
theorem width_bounds {lead : UInt8} {n : Nat} (h : width lead = some n) : 1 ≤ n ∧ n ≤ 4 := by
  unfold width at h
  grind

/-- The second octet is a continuation octet in the narrower range that its lead leaves. -/
theorem continues_lead_iff {lead octet : UInt8} :
    continues [lead] octet = true ↔ 0x80 ≤ octet.toNat ∧ octet.toNat ≤ 0xBF ∧
      (lead.toNat = 0xE0 → 0xA0 ≤ octet.toNat) ∧ (lead.toNat = 0xED → octet.toNat ≤ 0x9F) ∧
      (lead.toNat = 0xF0 → 0x90 ≤ octet.toNat) ∧ (lead.toNat = 0xF4 → octet.toNat ≤ 0x8F) := by
  simp only [continues, secondRange, ← UInt8.toNat_inj, Bool.and_eq_true, decide_eq_true_eq,
    UInt8.le_iff_toNat_le, UInt8.reduceToNat]
  split
  · simp only [UInt8.reduceToNat]; omega
  split
  · simp only [UInt8.reduceToNat]; omega
  split
  · simp only [UInt8.reduceToNat]; omega
  split <;> simp only [UInt8.reduceToNat] <;> omega

/-- A later octet is any continuation octet. -/
theorem continues_tail_iff {lead second octet : UInt8} {more : List UInt8} :
    continues (lead :: second :: more) octet = true ↔ 0x80 ≤ octet.toNat ∧ octet.toNat ≤ 0xBF := by
  simp only [continues, Bool.and_eq_true, decide_eq_true_eq, UInt8.le_iff_toNat_le,
    UInt8.reduceToNat]

/-- Whatever is held, some octet carries it on. -/
theorem exists_continues {held : List UInt8} (h : held ≠ []) :
    ∃ octet, continues held octet = true := by
  match held with
  | [] => exact absurd rfl h
  | [lead] =>
    refine ⟨(secondRange lead).1, ?_⟩
    simp only [continues, secondRange, Bool.and_eq_true]
    split
    · decide
    split
    · decide
    split
    · decide
    split <;> decide
  | _ :: _ :: _ => exact ⟨0x80, rfl⟩

/-! ## Sequences of the tables -/

/-- Each of the octets carries on what stands before it. -/
def CarryOn (held : List UInt8) : List UInt8 → Prop
  | [] => True
  | octet :: rest => continues held octet = true ∧ CarryOn (held ++ [octet]) rest

/-- The octets are one whole sequence of the tables. -/
def IsSequence : List UInt8 → Prop
  | [] => False
  | lead :: tail => width lead = some (tail.length + 1) ∧ CarryOn [lead] tail

theorem carryOn_append {held a b : List UInt8} :
    CarryOn held (a ++ b) ↔ CarryOn held a ∧ CarryOn (held ++ a) b := by
  induction a generalizing held with
  | nil => simp [CarryOn]
  | cons octet a ih => simp [CarryOn, ih, and_assoc]

/-- Every character is written as a sequence of the tables. -/
theorem isSequence_encode (c : Char) : IsSequence (String.utf8EncodeChar c) := by
  have hv : c.val.toNat.isValidChar := c.valid
  simp only [Nat.isValidChar] at hv
  fun_cases String.utf8EncodeChar c <;>
    simp only [IsSequence, CarryOn, List.length_cons, List.length_nil, List.cons_append,
      List.nil_append, Nat.zero_add, Nat.reduceAdd, continues_lead_iff, continues_tail_iff,
      and_true]
  · simp only [width_eq_one_iff, UInt8.toNat_ofNat']; omega
  · simp only [width_eq_two_iff, UInt8.toNat_ofNat']; omega
  · simp only [width_eq_three_iff, UInt8.toNat_ofNat']; omega
  · simp only [width_eq_four_iff, UInt8.toNat_ofNat']; omega

/-- The number of the character with a valid number. -/
theorem toNat_val_ofNat {n : Nat} (h : n.isValidChar) : (Char.ofNat n).val.toNat = n := by
  rw [Char.ofNat, dif_pos h]
  rfl

/-- A sequence of the tables is how the character that is read from it is written. -/
theorem encode_assemble {octets : List UInt8} (h : IsSequence octets) :
    String.utf8EncodeChar (assemble octets) = octets := by
  -- One case for each width: the bits that are read out are the bits that were put in.
  match octets with
  | [] => exact h.elim
  | [a] =>
    simp only [IsSequence, List.length_nil, Nat.zero_add, width_eq_one_iff] at h
    have hv := toNat_val_ofNat (n := a.toNat) (by left; omega)
    simp only [assemble, String.utf8EncodeChar, hv]
    rw [if_pos (by omega)]
    simp only [List.cons.injEq, and_true, ← UInt8.toNat_inj, UInt8.toNat_ofNat']
    omega
  | [a, b] =>
    simp only [IsSequence, CarryOn, List.length_cons, List.length_nil, Nat.zero_add,
      Nat.reduceAdd, width_eq_two_iff, continues_lead_iff] at h
    have hv := toNat_val_ofNat (n := a.toNat % 32 * 64 + b.toNat % 64) (by left; omega)
    simp only [assemble, payload, String.utf8EncodeChar, hv]
    rw [if_neg (by omega), if_pos (by omega)]
    simp only [List.cons.injEq, and_true, ← UInt8.toNat_inj, UInt8.toNat_ofNat']
    omega
  | [a, b, c] =>
    simp only [IsSequence, CarryOn, List.length_cons, List.length_nil, Nat.zero_add,
      Nat.reduceAdd, List.cons_append, List.nil_append, width_eq_three_iff, continues_lead_iff,
      continues_tail_iff] at h
    have hv := toNat_val_ofNat (n := (a.toNat % 16 * 64 + b.toNat % 64) * 64 + c.toNat % 64)
      (by simp only [Nat.isValidChar]; omega)
    simp only [assemble, payload, String.utf8EncodeChar, hv]
    rw [if_neg (by omega), if_neg (by omega), if_pos (by omega)]
    simp only [List.cons.injEq, and_true, ← UInt8.toNat_inj, UInt8.toNat_ofNat']
    omega
  | [a, b, c, d] =>
    simp only [IsSequence, CarryOn, List.length_cons, List.length_nil, Nat.zero_add,
      Nat.reduceAdd, List.cons_append, List.nil_append, width_eq_four_iff, continues_lead_iff,
      continues_tail_iff] at h
    have hv := toNat_val_ofNat
      (n := ((a.toNat % 8 * 64 + b.toNat % 64) * 64 + c.toNat % 64) * 64 + d.toNat % 64)
      (by simp only [Nat.isValidChar]; omega)
    simp only [assemble, payload, String.utf8EncodeChar, hv]
    rw [if_neg (by omega), if_neg (by omega), if_neg (by omega)]
    simp only [List.cons.injEq, and_true, ← UInt8.toNat_inj, UInt8.toNat_ofNat']
    omega
  | _ :: _ :: _ :: _ :: _ :: tail =>
    have := (width_bounds h.1).2
    simp only [List.length_cons] at this
    omega

/-! ## Beginnings of sequences -/

/-- The octets begin the sequence of some character. -/
def Begins (octets : List UInt8) : Prop := ∃ c, octets <+: String.utf8EncodeChar c

/-- What begins a longer beginning begins a character. -/
theorem Begins.of_prefix {part octets : List UInt8} (h : Begins octets) (hp : part <+: octets) :
    Begins part := by
  obtain ⟨c, hc⟩ := h
  exact ⟨c, hp.trans hc⟩

/-- Octets that may be held and are not yet too many can be completed. -/
theorem begins_of_carryOn {lead : UInt8} {n : Nat} (hw : width lead = some n) (k : Nat) :
    ∀ tail : List UInt8, tail.length + 1 + k = n → CarryOn [lead] tail → Begins (lead :: tail) := by
  -- On how many octets are missing.
  induction k with
  | zero =>
    intro tail hk hc
    have hs : IsSequence (lead :: tail) := ⟨by rw [hw, ← hk], hc⟩
    exact ⟨assemble (lead :: tail), [], by rw [List.append_nil, encode_assemble hs]⟩
  | succ k ih =>
    intro tail hk hc
    obtain ⟨octet, ho⟩ := exists_continues (List.cons_ne_nil lead tail)
    have hlen : (tail ++ [octet]).length + 1 + k = n := by
      rw [List.length_append, List.length_singleton]
      omega
    have hgrown := ih (tail ++ [octet]) hlen (carryOn_append.2 ⟨hc, ho, trivial⟩)
    exact hgrown.of_prefix ⟨[octet], rfl⟩

/-- Octets begin a character exactly if the tables let the machine hold or complete them. -/
theorem begins_iff {lead : UInt8} {tail : List UInt8} :
    Begins (lead :: tail) ↔ ∃ n, width lead = some n ∧ tail.length < n ∧ CarryOn [lead] tail := by
  constructor
  · rintro ⟨c, more, hc⟩
    have hs := isSequence_encode c
    rw [← hc, List.cons_append] at hs
    refine ⟨_, hs.1, ?_, (carryOn_append.1 hs.2).1⟩
    rw [List.length_append]
    omega
  · rintro ⟨n, hw, hlt, hc⟩
    exact begins_of_carryOn hw (n - (tail.length + 1)) tail (by omega) hc

/-! ## What the machine holds -/

/-- The octets are what the machine holds between two octets of one character: they begin a
character and are not yet a whole one. -/
structure IsHeld (held : List UInt8) : Prop where
  ne_nil : held ≠ []
  begins : Begins held
  not_whole : isWhole held = false

/-- An octet carries on what is held exactly if some character begins with both. -/
theorem begins_concat_iff {held : List UInt8} {octet : UInt8} (h : IsHeld held) :
    Begins (held ++ [octet]) ↔ continues held octet = true := by
  match held with
  | [] => exact absurd rfl h.ne_nil
  | lead :: tail =>
    obtain ⟨n, hw, hlt, hc⟩ := begins_iff.1 h.begins
    -- What is held is not whole, so there is room for an octet.
    have hn : n ≠ tail.length + 1 := by
      have := h.not_whole
      simp only [isWhole, hw, List.length_cons, beq_eq_false_iff_ne, ne_eq, Option.some.injEq]
        at this
      exact this
    rw [List.cons_append, begins_iff]
    constructor
    · rintro ⟨_, -, -, hg⟩
      exact (carryOn_append.1 hg).2.1
    · intro ho
      refine ⟨n, hw, ?_, carryOn_append.2 ⟨hc, ho, trivial⟩⟩
      simp only [List.length_append, List.length_cons, List.length_nil]
      omega

/-- A beginning of a character that is whole is how the character read from it is written. -/
theorem encode_assemble_of_whole {octets : List UInt8} (h : Begins octets)
    (hw : isWhole octets = true) : String.utf8EncodeChar (assemble octets) = octets := by
  match octets with
  | [] => simp [isWhole] at hw
  | lead :: tail =>
    obtain ⟨n, -, -, hc⟩ := begins_iff.1 h
    simp only [isWhole, List.length_cons, beq_iff_eq] at hw
    exact encode_assemble ⟨hw, hc⟩

/-- No character is written as a part of what is held. -/
theorem IsHeld.not_encode_prefix {held : List UInt8} (h : IsHeld held) (c : Char) :
    ¬ String.utf8EncodeChar c <+: held := by
  rintro ⟨more, hm⟩
  have hs := isSequence_encode c
  match hc : String.utf8EncodeChar c with
  | [] => rw [hc] at hs; exact hs.elim
  | lead :: tail =>
    rw [hc] at hs hm
    rw [List.cons_append] at hm
    subst hm
    obtain ⟨n, hw, hlt, -⟩ := begins_iff.1 h.begins
    have hnot := h.not_whole
    have hn : n = tail.length + 1 := Option.some.inj (hw.symm.trans hs.1)
    simp only [List.length_append] at hlt
    simp only [isWhole, hs.1, List.length_cons, List.length_append, beq_eq_false_iff_ne, ne_eq,
      Option.some.injEq] at hnot
    omega

end DaemonRpc.Utf8

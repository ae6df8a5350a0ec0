import DaemonRpc.Number.Binary64
import Mathlib.Algebra.Order.Field.Power
import Mathlib.Data.Rat.Cast.Order
import Mathlib.Tactic.FieldSimp
import Mathlib.Tactic.Linarith
import Mathlib.Tactic.Positivity
import Mathlib.Tactic.Ring

/-!
# Rounding to binary64

Rounding keeps the order of the values. An infinite result stands for a value above all numbers, so
two results are compared by `AtMost`.

* `divRoundEven_mono`: division rounded to whole numbers is monotone.
* `Normal`: the exponent that a fraction has, which fixes it and grows with the fraction.
* `wellFormed_ofRatio`: the result of a rounding has at most 53 bits, and fewer only at the least
  exponent.
* `atMost_ofRatio`: a smaller fraction is rounded to a number at most as great.
* `AtMost.bind`, `atMost_add`, `atMost_div`: so are computations from smaller numbers.
-/

namespace DaemonRpc

/-! ## Whole numbers -/

section DivRoundEven

variable {a b c d k : Nat}

/-- The rounded quotient is within a half of the exact one, and even where it is off by a half. -/
theorem divRoundEven_spec (hb : 0 < b) :
    2 * a ≤ (2 * divRoundEven a b + 1) * b ∧ 2 * divRoundEven a b * b ≤ 2 * a + b ∧
      (2 * a = (2 * divRoundEven a b + 1) * b ∨ 2 * divRoundEven a b * b = 2 * a + b →
        divRoundEven a b % 2 = 0) := by
  have hdiv := Nat.div_add_mod a b
  have hmod := Nat.mod_lt a hb
  have hcomm : b * (a / b) = a / b * b := Nat.mul_comm _ _
  unfold divRoundEven
  simp only
  split
  · rename_i hup
    have hdown : (2 * (a / b + 1) + 1) * b = 2 * (a / b * b) + 3 * b := by ring
    have hnear : 2 * (a / b + 1) * b = 2 * (a / b * b) + 2 * b := by ring
    refine ⟨by omega, by omega, ?_⟩
    rw [hdown, hnear]
    omega
  · rename_i hup
    have hdown : (2 * (a / b) + 1) * b = 2 * (a / b * b) + b := by ring
    have hnear : 2 * (a / b) * b = 2 * (a / b * b) := by ring
    refine ⟨by omega, by omega, ?_⟩
    rw [hdown, hnear]
    omega

/-- A smaller fraction is rounded to a number at most as great. -/
theorem divRoundEven_mono (hb : 0 < b) (hd : 0 < d) (h : a * d ≤ c * b) :
    divRoundEven a b ≤ divRoundEven c d := by
  obtain ⟨-, habove, heven⟩ := divRoundEven_spec (a := a) hb
  obtain ⟨hbelow, -, heven'⟩ := divRoundEven_spec (a := c) hd
  generalize divRoundEven a b = k at *
  generalize divRoundEven c d = l at *
  by_contra hlt
  have hkl : l + 1 ≤ k := by omega
  -- The two are at most one apart, and only if both fractions are ties between the two.
  have h1 : 2 * k * b * d ≤ (2 * a + b) * d := Nat.mul_le_mul_right d habove
  have h2 : 2 * c * b ≤ (2 * l + 1) * d * b := Nat.mul_le_mul_right b hbelow
  have h3 : (2 * (l + 1)) * (b * d) ≤ 2 * k * (b * d) :=
    Nat.mul_le_mul_right (b * d) (Nat.mul_le_mul_left 2 hkl)
  have hbd : 0 < b * d := Nat.mul_pos hb hd
  have hk : k = l + 1 := by
    have : 2 * k * (b * d) ≤ 2 * (l + 1) * (b * d) := by linarith
    have := Nat.le_of_mul_le_mul_right this hbd
    omega
  have htie : 2 * k * b = 2 * a + b := by
    have : (2 * a + b) * d ≤ 2 * k * b * d := by linarith
    exact Nat.le_antisymm habove (Nat.le_of_mul_le_mul_right this hd)
  have htie' : 2 * c = (2 * l + 1) * d := by
    have : (2 * l + 1) * d * b ≤ 2 * c * b := by linarith
    exact Nat.le_antisymm hbelow (Nat.le_of_mul_le_mul_right this hb)
  have := heven (.inr htie)
  have := heven' (.inl htie')
  omega

@[simp]
theorem divRoundEven_one (k : Nat) : divRoundEven k 1 = k := by
  simp [divRoundEven, Nat.mod_one]

theorem divRoundEven_le (hb : 0 < b) (h : a ≤ k * b) : divRoundEven a b ≤ k := by
  simpa using divRoundEven_mono (c := k) hb Nat.one_pos (by simpa using h)

theorem le_divRoundEven (hb : 0 < b) (h : k * b ≤ a) : k ≤ divRoundEven a b := by
  simpa using divRoundEven_mono (a := k) Nat.one_pos hb (by simpa using h)

end DivRoundEven

namespace Binary64

variable {num den num' den' : Nat} {x x' y y' : Binary64} {e e' : Int} {r s : ℚ}

/-! ## Values -/

/-- The exact value. -/
def toRat (x : Binary64) : ℚ := x.num / x.den

theorem den_pos (x : Binary64) : 0 < x.den := Nat.pow_pos Nat.two_pos

/-- A denominator in units of a power of two is positive. -/
theorem units_pos (hden : 0 < den) (e : Int) : 0 < den * Nat.pow 2 e.toNat :=
  Nat.mul_pos hden (Nat.pow_pos Nat.two_pos)

theorem toRat_nonneg (x : Binary64) : 0 ≤ x.toRat := by
  unfold toRat
  positivity

@[simp]
theorem toRat_zero : zero.toRat = 0 := by
  have hnum : zero.num = 0 := Nat.zero_mul _
  rw [toRat, hnum, Nat.cast_zero, zero_div]

/-- Fractions are compared by multiplication. -/
theorem mul_le_mul_of_div_le (hden : 0 < den) (hden' : 0 < den')
    (h : (num : ℚ) / den ≤ num' / den') : num * den' ≤ num' * den := by
  rw [div_le_div_iff₀ (by exact_mod_cast hden) (by exact_mod_cast hden')] at h
  exact_mod_cast h

/-- A power of two is a fraction of whole powers. -/
theorem two_zpow (e : Int) :
    (2 : ℚ) ^ e = (Nat.pow 2 e.toNat : Nat) / (Nat.pow 2 (-e).toNat : Nat) := by
  rcases Int.le_total 0 e with he | he
  · obtain ⟨n, rfl⟩ := Int.eq_ofNat_of_zero_le he
    simp
  · obtain ⟨n, hn⟩ := Int.eq_ofNat_of_zero_le (Int.neg_nonneg_of_nonpos he)
    obtain rfl : e = -(n : Int) := by omega
    simp

theorem toRat_eq (x : Binary64) : x.toRat = x.significand * 2 ^ x.exponent := by
  rw [toRat, num, den, two_zpow, mul_div_assoc', Nat.cast_mul]

/-- A fraction in units of a power of two, as `ofRatio` divides it. -/
theorem inUnits_eq (num den : Nat) (e : Int) :
    ((num * Nat.pow 2 (-e).toNat : Nat) : ℚ) / (den * Nat.pow 2 e.toNat : Nat) =
      num / den / 2 ^ e := by
  rw [two_zpow, div_div_div_eq, Nat.cast_mul, Nat.cast_mul]

/-! ## The exponent -/

/-- The fraction has 53 bits in units of `2 ^ e`, or fewer if that is the least exponent. -/
structure Normal (r : ℚ) (e : Int) : Prop where
  min : minExponent ≤ e
  lt : r < 2 ^ (e + 53)
  le : e = minExponent ∨ 2 ^ (e + 52) ≤ r

/-- The exponent grows with the fraction. -/
theorem Normal.le_of_le (hr : Normal r e) (hs : Normal s e') (h : r ≤ s) : e ≤ e' := by
  rcases hr.le with hmin | hle
  · exact hmin ▸ hs.min
  · have hlt : (2 : ℚ) ^ (e + 52) < 2 ^ (e' + 53) := (hle.trans h).trans_lt hs.lt
    have := (zpow_lt_zpow_iff_right₀ one_lt_two).1 hlt
    omega

/-- The whole part of a fraction is below a whole number if the fraction is. -/
theorem div_lt_iff {a b k : Nat} (hb : 0 < b) : a / b < k ↔ (a : ℚ) / b < k := by
  rw [Nat.div_lt_iff_lt_mul hb, div_lt_iff₀ (by exact_mod_cast hb)]
  exact_mod_cast Iff.rfl

theorem toRat_lt_iff (x : Binary64) (k : Nat) : x.num / x.den < k ↔ x.toRat < k :=
  div_lt_iff x.den_pos

/-- `exponentOf` finds the exponent. -/
theorem normal_exponentOf (hnum : 0 < num) (hden : 0 < den) :
    Normal ((num : ℚ) / den) (exponentOf num den) := by
  set r : ℚ := (num : ℚ) / den with hr
  set guess : Int := (num.log2 : Int) - (den.log2 : Int) - 52 with hguess
  have hden' : (0 : ℚ) < den := by exact_mod_cast hden
  have hbits : ∀ n : Nat, 0 < n →
      (2 : ℚ) ^ (n.log2 : Int) ≤ n ∧ (n : ℚ) < 2 ^ (n.log2 + 1 : Int) := by
    intro n hn
    constructor
    · exact_mod_cast Nat.log2_self_le hn.ne'
    · exact_mod_cast Nat.lt_log2_self (n := n)
  -- The guess is right, or one too great.
  have hhigh : r < 2 ^ (guess + 53) := by
    rw [hr, div_lt_iff₀ hden']
    calc (num : ℚ) < 2 ^ (num.log2 + 1 : Int) := (hbits num hnum).2
      _ = 2 ^ (guess + 53) * 2 ^ (den.log2 : Int) := by
          rw [← zpow_add₀ two_ne_zero]
          congr 1
          omega
      _ ≤ 2 ^ (guess + 53) * den := by
          gcongr
          exact (hbits den hden).1
  have hlow : 2 ^ (guess + 51) ≤ r := by
    rw [hr, le_div_iff₀ hden']
    calc (2 : ℚ) ^ (guess + 51) * den ≤ 2 ^ (guess + 51) * 2 ^ (den.log2 + 1 : Int) := by
          gcongr
          exact (hbits den hden).2.le
      _ = 2 ^ (num.log2 : Int) := by
          rw [← zpow_add₀ two_ne_zero]
          congr 1
          omega
      _ ≤ num := (hbits num hnum).1
  have hquotient : num * Nat.pow 2 (-guess).toNat / (den * Nat.pow 2 guess.toNat) < Nat.pow 2 52 ↔
      r < 2 ^ (guess + 52) := by
    rw [div_lt_iff (units_pos hden guess), inUnits_eq, ← hr,
      div_lt_iff₀ (zpow_pos two_pos guess), zpow_add₀ two_ne_zero, mul_comm]
    norm_num
  have hexp : exponentOf num den =
      max minExponent (if r < 2 ^ (guess + 52) then guess - 1 else guess) := by
    simp only [exponentOf, ← hguess, hquotient]
  rw [hexp]
  split
  · rename_i hlt
    refine ⟨le_max_left _ _, hlt.trans_le (zpow_le_zpow_right₀ one_le_two (by omega)), ?_⟩
    rcases max_choice minExponent (guess - 1) with h | h
    · exact .inl h
    · exact .inr (by rw [h]; convert hlow using 2; omega)
  · rename_i hlt
    refine ⟨le_max_left _ _, hhigh.trans_le (zpow_le_zpow_right₀ one_le_two (by omega)), ?_⟩
    rcases max_choice minExponent guess with h | h
    · exact .inl h
    · exact .inr (by rw [h]; exact not_lt.1 hlt)

/-! ## Rounding -/

/-- The fraction in units of a power of two, rounded. -/
def roundAt (num den : Nat) (e : Int) : Nat :=
  divRoundEven (num * Nat.pow 2 (-e).toNat) (den * Nat.pow 2 e.toNat)

/-- The number of so many units, where 54 bits are one too many. -/
def normalize (rounded : Nat) (e : Int) : Binary64 :=
  if rounded = Nat.pow 2 53 then ⟨Nat.pow 2 52, e + 1⟩ else ⟨rounded, e⟩

theorem ofRatio_eq (h : num ≠ 0) :
    ofRatio num den =
      let x := normalize (roundAt num den (exponentOf num den)) (exponentOf num den)
      if maxExponent < x.exponent then none else some x := by
  simp only [ofRatio, if_neg h]
  rfl

theorem roundAt_mono (hden : 0 < den) (hden' : 0 < den') (h : (num : ℚ) / den ≤ num' / den') :
    roundAt num den e ≤ roundAt num' den' e := by
  have hpos := units_pos hden e
  have hpos' := units_pos hden' e
  refine divRoundEven_mono hpos hpos' (mul_le_mul_of_div_le hpos hpos' ?_)
  rw [inUnits_eq, inUnits_eq]
  gcongr

/-- At its exponent a fraction is rounded to a number of 53 bits, or to the next power of two. -/
theorem roundAt_le (hden : 0 < den) (h : Normal ((num : ℚ) / den) e) :
    roundAt num den e ≤ Nat.pow 2 53 := by
  have hpos := units_pos hden e
  refine divRoundEven_le hpos ?_
  have hlt : (num : ℚ) / den / 2 ^ e < (Nat.pow 2 53 : Nat) := by
    rw [div_lt_iff₀ (zpow_pos two_pos e)]
    refine h.lt.trans_eq ?_
    rw [zpow_add₀ two_ne_zero, mul_comm]
    norm_num
  rw [← inUnits_eq, div_lt_iff₀ (by exact_mod_cast hpos)] at hlt
  exact_mod_cast hlt.le

theorem le_roundAt (hden : 0 < den) (h : Normal ((num : ℚ) / den) e) :
    e = minExponent ∨ Nat.pow 2 52 ≤ roundAt num den e := by
  refine h.le.imp_right fun hle => ?_
  have hpos := units_pos hden e
  refine le_divRoundEven hpos ?_
  have hge : ((Nat.pow 2 52 : Nat) : ℚ) ≤ num / den / 2 ^ e := by
    rw [le_div_iff₀ (zpow_pos two_pos e)]
    refine Eq.trans_le ?_ hle
    rw [zpow_add₀ two_ne_zero, mul_comm]
    norm_num
  rw [← inUnits_eq, le_div_iff₀ (by exact_mod_cast hpos)] at hge
  exact_mod_cast hge

/-- The carry does not change the value. -/
theorem toRat_normalize (rounded : Nat) (e : Int) :
    (normalize rounded e).toRat = rounded * 2 ^ e := by
  rw [normalize]
  split
  · rename_i h
    rw [toRat_eq, h, zpow_add₀ two_ne_zero]
    norm_num
    ring
  · rw [toRat_eq]

/-- A number of the format: 53 bits, or fewer at the least exponent. -/
structure WellFormed (x : Binary64) : Prop where
  significand_lt : x.significand < Nat.pow 2 53
  canonical : x.exponent = minExponent ∨ Nat.pow 2 52 ≤ x.significand
  exponent_ge : minExponent ≤ x.exponent
  exponent_le : x.exponent ≤ maxExponent

theorem wellFormed_zero : zero.WellFormed :=
  ⟨by decide, .inl rfl, by decide, by decide⟩

/-- Rounding gives numbers of the format. -/
theorem wellFormed_ofRatio (hden : 0 < den) (h : ofRatio num den = some x) : x.WellFormed := by
  by_cases hnum : num = 0
  · rw [ofRatio, if_pos hnum] at h
    exact Option.some.inj h ▸ wellFormed_zero
  · have hnormal := normal_exponentOf (Nat.pos_of_ne_zero hnum) hden
    rw [ofRatio_eq hnum] at h
    simp only [Option.ite_none_left_eq_some, Option.some.injEq] at h
    obtain ⟨hmax, rfl⟩ := h
    have hle := roundAt_le hden hnormal
    have hge := le_roundAt hden hnormal
    have hmin := hnormal.min
    rw [normalize] at hmax ⊢
    split at hmax
    · -- The next power of two has the least significand of 53 bits.
      rename_i hcarry
      rw [if_pos hcarry]
      exact ⟨Nat.pow_lt_pow_right (by decide) (by decide), .inr le_rfl, by simp only; omega,
        not_lt.1 hmax⟩
    · rename_i hcarry
      rw [if_neg hcarry]
      exact ⟨lt_of_le_of_ne hle hcarry, hge, hmin, not_lt.1 hmax⟩

/-- Below a power of two the numbers of the format leave a gap. -/
theorem WellFormed.toRat_le (hx : x.WellFormed) (k : Nat)
    (h : x.toRat < (Nat.pow 2 53 * 2 ^ k : Nat)) :
    x.toRat ≤ ((Nat.pow 2 53 - 1) * 2 ^ k : Nat) := by
  rw [toRat_eq] at h ⊢
  have hbits : x.significand ≤ Nat.pow 2 53 - 1 := Nat.le_sub_one_of_lt hx.significand_lt
  rcases Int.le_total x.exponent k with he | he
  · calc (x.significand : ℚ) * 2 ^ x.exponent ≤ (Nat.pow 2 53 - 1 : Nat) * 2 ^ (k : Int) := by
          gcongr
          exact one_le_two
      _ = ((Nat.pow 2 53 - 1) * 2 ^ k : Nat) := by
          rw [zpow_natCast]
          push_cast
          rfl
  · -- The number is a multiple of `2 ^ k`, as the power of two is.
    obtain ⟨j, hj⟩ := Int.eq_ofNat_of_zero_le (Int.sub_nonneg_of_le he)
    obtain hexp : x.exponent = j + k := by omega
    have hvalue : (x.significand : ℚ) * 2 ^ x.exponent = (x.significand * 2 ^ j * 2 ^ k : Nat) := by
      rw [hexp, zpow_add₀ two_ne_zero, zpow_natCast, zpow_natCast]
      push_cast
      ring
    rw [hvalue, Nat.cast_lt] at h
    rw [hvalue, Nat.cast_le]
    exact Nat.mul_le_mul_right _ (Nat.le_sub_one_of_lt (Nat.lt_of_mul_lt_mul_right h))

/-! ## Order -/

/-- One result is at most another; no number is infinite. -/
def AtMost (o p : Option Binary64) : Prop := ∀ y, p = some y → ∃ x, o = some x ∧ x.toRat ≤ y.toRat

theorem AtMost.refl (o : Option Binary64) : AtMost o o := fun y h => ⟨y, h, le_rfl⟩

theorem AtMost.of_le (h : x.toRat ≤ y.toRat) : AtMost (some x) (some y) := by
  rintro _ ⟨⟩
  exact ⟨x, rfl, h⟩

theorem AtMost.bind {o p : Option Binary64} {f g : Binary64 → Option Binary64} (h : AtMost o p)
    (hfg : ∀ x y, x.toRat ≤ y.toRat → AtMost (f x) (g y)) : AtMost (o.bind f) (p.bind g) := by
  intro z hz
  obtain ⟨y, hy, hgy⟩ := Option.bind_eq_some_iff.1 hz
  obtain ⟨x, rfl, hxy⟩ := h y hy
  exact hfg x y hxy z hgy

/-- A smaller fraction is rounded to a number at most as great. -/
theorem atMost_ofRatio (hden : 0 < den) (hden' : 0 < den') (h : (num : ℚ) / den ≤ num' / den') :
    AtMost (ofRatio num den) (ofRatio num' den') := by
  by_cases hnum : num = 0
  · intro y _
    exact ⟨zero, by rw [ofRatio, if_pos hnum], by simpa using y.toRat_nonneg⟩
  have hpos : 0 < (num : ℚ) / den := by
    have := Nat.pos_of_ne_zero hnum
    positivity
  have hnum' : num' ≠ 0 := by
    rintro rfl
    exact absurd (hpos.trans_le h) (by simp)
  have hr := normal_exponentOf (Nat.pos_of_ne_zero hnum) hden
  have hs := normal_exponentOf (Nat.pos_of_ne_zero hnum') hden'
  rw [ofRatio_eq hnum, ofRatio_eq hnum']
  have he := hr.le_of_le hs h
  have hk := roundAt_le hden hr
  have hl := le_roundAt hden' hs
  have hl' := roundAt_le hden' hs
  have hmono : exponentOf num den = exponentOf num' den' →
      roundAt num den (exponentOf num den) ≤ roundAt num' den' (exponentOf num' den') :=
    fun heq => heq ▸ roundAt_mono hden hden' h
  have hmin := hr.min
  generalize roundAt num den (exponentOf num den) = k at *
  generalize roundAt num' den' (exponentOf num' den') = l at *
  generalize exponentOf num den = e at *
  generalize exponentOf num' den' = e' at *
  -- Either both are in the same units, or the second has 53 bits of greater ones.
  have hvalue : (normalize k e).toRat ≤ (normalize l e').toRat := by
    rw [toRat_normalize, toRat_normalize]
    rcases he.eq_or_lt with heq | hlt
    · have := hmono heq
      rw [heq]
      gcongr
    · have hbits : Nat.pow 2 52 ≤ l := hl.resolve_left (by omega)
      calc (k : ℚ) * 2 ^ e ≤ (Nat.pow 2 53 : Nat) * 2 ^ e := by gcongr
        _ = (Nat.pow 2 52 : Nat) * 2 ^ (e + 1) := by
            rw [zpow_add₀ two_ne_zero]
            norm_num
            ring
        _ ≤ l * 2 ^ e' := by
            gcongr
            · exact one_le_two
            · omega
  have hexponent : (normalize k e).exponent ≤ (normalize l e').exponent := by
    rw [normalize, normalize]
    rcases he.eq_or_lt with heq | hlt
    · have := hmono heq
      split_ifs <;> simp only <;> omega
    · split_ifs <;> simp only <;> omega
  intro y hy
  simp only [Option.ite_none_left_eq_some, Option.some.injEq] at hy
  obtain ⟨hmax, rfl⟩ := hy
  exact ⟨normalize k e, if_neg (by omega), hvalue⟩

theorem add_value (x y : Binary64) :
    ((x.num * y.den + y.num * x.den : Nat) : ℚ) / (x.den * y.den : Nat) = x.toRat + y.toRat := by
  have hx : (x.den : ℚ) ≠ 0 := by exact_mod_cast x.den_pos.ne'
  have hy : (y.den : ℚ) ≠ 0 := by exact_mod_cast y.den_pos.ne'
  rw [toRat, toRat]
  push_cast
  field_simp

theorem atMost_add (hx : x.toRat ≤ x'.toRat) (hy : y.toRat ≤ y'.toRat) :
    AtMost (x.add y) (x'.add y') := by
  refine atMost_ofRatio (Nat.mul_pos x.den_pos y.den_pos) (Nat.mul_pos x'.den_pos y'.den_pos) ?_
  rw [add_value, add_value]
  exact add_le_add hx hy

theorem atMost_div (hx : x.toRat ≤ x'.toRat) (y : Binary64) : AtMost (x.div y) (x'.div y) := by
  by_cases hy : y.num = 0
  · rw [div, div, if_pos hy, if_pos hy]
    exact AtMost.refl none
  · have hpos : ∀ z : Binary64, 0 < z.den * y.num := fun z =>
      Nat.mul_pos z.den_pos (Nat.pos_of_ne_zero hy)
    rw [div, div, if_neg hy, if_neg hy]
    refine atMost_ofRatio (hpos x) (hpos x') ?_
    have hvalue : ∀ z : Binary64,
        ((z.num * y.den : Nat) : ℚ) / (z.den * y.num : Nat) = z.toRat * (y.den / y.num) := by
      intro z
      rw [toRat, Nat.cast_mul, Nat.cast_mul, div_mul_div_comm]
    rw [hvalue, hvalue]
    gcongr

theorem wellFormed_add {z : Binary64} (h : x.add y = some z) : z.WellFormed :=
  wellFormed_ofRatio (Nat.mul_pos x.den_pos y.den_pos) h

end Binary64

end DaemonRpc

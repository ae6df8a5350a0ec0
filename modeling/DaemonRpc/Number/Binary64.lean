/-!
# Non-negative binary64 numbers

The finite non-negative numbers of the IEEE 754 format with 53 significant bits, held exactly as a
significand and a power of two. Every operation is the exact one on fractions followed by one
rounding to nearest, ties to the even significand, so the arithmetic is that of the format without
any run-time floating point.
-/

namespace DaemonRpc

/-- Divide and round to the nearest whole number, a tie to the even one. -/
def divRoundEven (num den : Nat) : Nat :=
  let quotient := num / den
  let remainder := num % den
  if den < 2 * remainder ∨ (den = 2 * remainder ∧ quotient % 2 = 1) then quotient + 1
  else quotient

/-- A finite non-negative binary64 number, `significand * 2 ^ exponent`. -/
structure Binary64 where
  /-- Below `2 ^ 53`, and at least `2 ^ 52` unless the exponent is the least one. -/
  significand : Nat
  /-- The power of two, between `-1074` and `971`. -/
  exponent : Int
  deriving DecidableEq, Repr

namespace Binary64

/-- The least exponent. -/
def minExponent : Int := -1074

/-- The greatest exponent. -/
def maxExponent : Int := 971

/-- The number zero. -/
def zero : Binary64 := ⟨0, minExponent⟩

/-- Numerator of the exact value. -/
def num (x : Binary64) : Nat := x.significand * Nat.pow 2 x.exponent.toNat

/-- Denominator of the exact value, a power of two. -/
def den (x : Binary64) : Nat := Nat.pow 2 (-x.exponent).toNat

/-- The exponent of the number nearest to `num / den`: the quotient has 53 bits in units of this
power of two, unless the least exponent does not allow it. -/
def exponentOf (num den : Nat) : Int :=
  -- The logarithms are rounded down, so the guess is right or one too great.
  let guess : Int := (num.log2 : Int) - (den.log2 : Int) - 52
  let quotient := num * Nat.pow 2 (-guess).toNat / (den * Nat.pow 2 guess.toNat)
  max minExponent (if quotient < Nat.pow 2 52 then guess - 1 else guess)

/-- The number nearest to `num / den`; `none` if that is infinite. -/
def ofRatio (num den : Nat) : Option Binary64 :=
  if num = 0 then some zero
  else
    let exponent := exponentOf num den
    let rounded := divRoundEven (num * Nat.pow 2 (-exponent).toNat) (den * Nat.pow 2 exponent.toNat)
    -- Rounding up may reach the next power of two, which needs one bit less.
    let result : Binary64 :=
      if rounded = Nat.pow 2 53 then ⟨Nat.pow 2 52, exponent + 1⟩ else ⟨rounded, exponent⟩
    if maxExponent < result.exponent then none else some result

/-- The number nearest to a whole number. -/
def ofNat (n : Nat) : Option Binary64 := ofRatio n 1

/-- Rounded sum. -/
def add (x y : Binary64) : Option Binary64 :=
  ofRatio (x.num * y.den + y.num * x.den) (x.den * y.den)

/-- Rounded product. -/
def mul (x y : Binary64) : Option Binary64 :=
  ofRatio (x.num * y.num) (x.den * y.den)

/-- Rounded quotient; `none` also for a zero divisor. -/
def div (x y : Binary64) : Option Binary64 :=
  if y.num = 0 then none else ofRatio (x.num * y.den) (x.den * y.num)

end Binary64

end DaemonRpc

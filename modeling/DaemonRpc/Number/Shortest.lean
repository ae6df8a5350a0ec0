import DaemonRpc.Number.Binary64

/-!
# The shortest decimal that reads back

Of the decimals that round to a given binary64 number, the ones with the fewest digits, and of
those the nearest. The search looks at the two neighbours of the exact value on the decimal grid of
one digit, then of two, up to seventeen; all comparisons are of whole numbers.
-/

namespace DaemonRpc

/-- A decimal `digits * 10 ^ exponent`. -/
structure Decimal where
  /-- The digits, read as one whole number. -/
  digits : Nat
  /-- The power of ten. -/
  exponent : Int
  deriving DecidableEq, Repr

namespace Decimal

/-- How many decimal digits a whole number has. -/
def width (n : Nat) : Nat := (Nat.toDigits 10 n).length

/-- Numerator of the value. -/
def num (d : Decimal) : Nat := d.digits * Nat.pow 10 d.exponent.toNat

/-- Denominator of the value. -/
def den (d : Decimal) : Nat := Nat.pow 10 (-d.exponent).toNat

/-- Move the zeros at the end of the digits into the exponent, at most `fuel` of them. -/
def stripZeros : Nat → Decimal → Decimal
  | 0, d => d
  | fuel + 1, d =>
    if d.digits ≠ 0 ∧ d.digits % 10 = 0 then stripZeros fuel ⟨d.digits / 10, d.exponent + 1⟩ else d

/-- The greatest power of ten that is at most `num / den`, both positive. -/
def magnitude (num den : Nat) : Int :=
  if den ≤ num then (width (num / den) : Int) - 1
  else
    -- One over the value is at least this power of ten, and more unless it is equal to it.
    let guess := width (den / num) - 1
    if den ≤ num * Nat.pow 10 guess then -(guess : Int) else -(guess : Int) - 1

end Decimal

namespace Binary64

/-- The decimal rounds to the number: it lies between the midpoints to the two neighbours, and may
be a midpoint itself if the significand is even. -/
def roundsTo (x : Binary64) (d : Decimal) : Bool :=
  -- Everything is in units of a quarter of the last bit; below a power of two neighbours are half
  -- as far apart.
  let below := if x.significand = Nat.pow 2 52 ∧ minExponent < x.exponent then 1 else 2
  let scale : Nat := Nat.pow 2 x.exponent.toNat
  let unit : Nat := 4 * Nat.pow 2 (-x.exponent).toNat
  let value := d.num * unit
  let low := (4 * x.significand - below) * scale * d.den
  let high := (4 * x.significand + 2) * scale * d.den
  if x.significand % 2 = 0 then low ≤ value && value ≤ high else low < value && value < high

/-- The neighbour of the number with `count` digits that reads back, the nearer one if both do and
the even one if they are equally near. -/
def neighbour? (x : Binary64) (count : Nat) : Option Decimal :=
  let grid := Decimal.magnitude x.num x.den + 1 - (count : Int)
  let num := x.num * Nat.pow 10 (-grid).toNat
  let den := x.den * Nat.pow 10 grid.toNat
  let low : Decimal := ⟨num / den, grid⟩
  let high : Decimal := ⟨num / den + 1, grid⟩
  let near : Decimal := ⟨divRoundEven num den, grid⟩
  -- If a point of the grid reads back, so does one of these two.
  match x.roundsTo low, x.roundsTo high with
  | true, true => some near
  | true, false => some low
  | false, true => some high
  | false, false => none

/-- The shortest decimal that reads back, without zeros at its end. -/
def shortest (x : Binary64) : Decimal :=
  if x.significand = 0 then ⟨0, 0⟩
  else
    -- Seventeen digits always suffice.
    match (List.range 17).findSome? fun i => x.neighbour? (i + 1) with
    | some d => d.stripZeros 20
    | none => ⟨x.num, 0⟩

end Binary64

end DaemonRpc

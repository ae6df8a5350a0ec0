import DaemonRpc.Number.Binary64

/-!
# Spans of time

A `Duration` is a whole number of nanoseconds.
-/

namespace DaemonRpc

/-- A span of time. -/
structure Duration where
  /-- Its length in nanoseconds. -/
  nanoseconds : Nat
  deriving DecidableEq, Repr

namespace Duration

/-- The span of so many milliseconds. -/
def ofMillis (n : Nat) : Duration := ⟨n * 1000000⟩

/-- The span of so many seconds and nanoseconds. -/
def ofSeconds (seconds nanoseconds : Nat) : Duration := ⟨seconds * 1000000000 + nanoseconds⟩

/-- The whole milliseconds in a span. -/
def millis (d : Duration) : Nat := d.nanoseconds / 1000000

/-- The whole seconds in a span. -/
def wholeSeconds (d : Duration) : Nat := d.nanoseconds / 1000000000

/-- The nanoseconds in a span beyond its whole seconds. -/
def subNanoseconds (d : Duration) : Nat := d.nanoseconds % 1000000000

/-- The span is empty. -/
def isZero (d : Duration) : Bool := d.nanoseconds == 0

/-- The span nearest to a number of seconds, a tie going to the even nanosecond; `none` from
`2 ^ 64` seconds on. -/
def ofFloatSeconds (x : Binary64) : Option Duration :=
  if x.num / x.den < UInt64.size then some ⟨divRoundEven (x.num * 1000000000) x.den⟩ else none

/-- A decimal fraction with `places` places, without zeros at its end; nothing if it is zero. -/
def writeFraction (places n : Nat) : List Char :=
  -- Zeros make up the places in front; those at the end go away.
  let digits := Nat.toDigits 10 n
  let padded := List.replicate (places - digits.length) '0' ++ digits
  if n = 0 then [] else '.' :: (padded.reverse.dropWhile (· == '0')).reverse

/-- The text of a span in diagnostics, in the largest unit of which it has at least one. -/
def display (d : Duration) : String :=
  let n := d.nanoseconds
  let inUnit := fun (places : Nat) (unit : String) =>
    let size := Nat.pow 10 places
    toString (n / size) ++ String.ofList (writeFraction places (n % size)) ++ unit
  if 1000000000 ≤ n then inUnit 9 "s"
  else if 1000000 ≤ n then inUnit 6 "ms"
  else if 1000 ≤ n then inUnit 3 "µs"
  else inUnit 0 "ns"

end Duration

end DaemonRpc

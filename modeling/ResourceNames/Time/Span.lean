import ResourceNames.Decimal.Arithmetic

namespace ResourceNames

/-- A length of time. -/
structure Span where
  seconds : Nat
  nanoseconds : Nat := 0
deriving DecidableEq, Repr, Inhabited

namespace Span

/-- A whole second in nanoseconds. -/
def second : Nat := 1000000000

def ofNanoseconds (n : Nat) : Span :=
  ⟨n / second, n % second⟩

/-- The whole seconds of a span fit in sixty-four bits. -/
def limit : Nat := 0x10000000000000000

/-- The span of so many seconds and nanoseconds, if its seconds fit. -/
def of? (seconds nanoseconds : Nat) : Option Span :=
  let whole := seconds + nanoseconds / second
  if whole < limit then some ⟨whole, nanoseconds % second⟩ else none

def ofMilliseconds (n : Nat) : Span :=
  ⟨n / 1000, n % 1000 * 1000000⟩

/-- The span as a person wants to read it. -/
def brief (span : Span) : String :=
  if 60 ≤ span.seconds then s!"{span.seconds / 60}m {span.seconds % 60}s"
  else if 0 < span.seconds then s!"{span.seconds}s"
  else s!"{span.nanoseconds / 1000000}ms"

/-- `whole` and as many of the `places` decimals that make up `part` as are needed. -/
def decimal (whole part places : Nat) : String :=
  let digits := (toString part).toList
  let padded := List.replicate (places - digits.length) '0' ++ digits
  let needed := (padded.reverse.dropWhile (· = '0')).reverse
  toString whole ++ if needed = [] then "" else "." ++ String.ofList needed

/-- The exact span in the largest unit of which it has one. -/
def exact (span : Span) : String :=
  if 0 < span.seconds then decimal span.seconds span.nanoseconds 9 ++ "s"
  else if 1000000 ≤ span.nanoseconds then
    decimal (span.nanoseconds / 1000000) (span.nanoseconds % 1000000) 6 ++ "ms"
  else if 1000 ≤ span.nanoseconds then
    decimal (span.nanoseconds / 1000) (span.nanoseconds % 1000) 3 ++ "µs"
  else s!"{span.nanoseconds}ns"

/-- The span in seconds. -/
def inSeconds (span : Span) : Binary64 :=
  (Binary64.ofNat span.seconds).sum
    ((Binary64.ofNat span.nanoseconds).quotient (Binary64.ofNat second))

/-- The span of so many seconds, to the nearest nanosecond. There is none for less than no time and
for more seconds than fit. -/
def ofSeconds? : Binary64 → Option Span
  | .nan => none
  | .infinite _ => none
  | .finite negative significand exponent =>
    if negative ∧ significand ≠ 0 then none
    else
      let (numerator, denominator) := Binary64.fraction significand exponent
      let span := ofNanoseconds (Binary64.roundDiv (numerator * second) denominator)
      if limit ≤ span.seconds then none else some span

end Span

end ResourceNames

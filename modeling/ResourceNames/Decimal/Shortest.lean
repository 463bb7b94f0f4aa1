import ResourceNames.Decimal.Binary64

namespace ResourceNames.Binary64

/-- The reals that round to a double, as a fraction `value / unit` with its bounds over the same
denominator; the bounds belong to it if `closed`. -/
structure Interval where
  low : Nat
  value : Nat
  high : Nat
  unit : Nat
  closed : Bool

/-- The numbers that have `significand * 2 ^ exponent` as their nearest double. Below a power of
two the next double is half as far away. -/
def interval (significand : Nat) (exponent : Int) : Interval :=
  let below := if significand = leadingBit ∧ minExponent < exponent then 1 else 2
  let scale := if 2 ≤ exponent then Nat.pow 2 (exponent - 2).toNat else 1
  { low := (4 * significand - below) * scale
    value := 4 * significand * scale
    high := (4 * significand + 2) * scale
    unit := if 2 ≤ exponent then 1 else Nat.pow 2 (2 - exponent).toNat
    closed := significand % 2 = 0 }

/-- Whether `n / d` lies in an interval. -/
def Interval.has (i : Interval) (n d : Nat) : Bool :=
  if i.closed then i.low * d ≤ n * i.unit && n * i.unit ≤ i.high * d
  else i.low * d < n * i.unit && n * i.unit < i.high * d

/-- The multiple of `10 ^ power` in an interval that is nearest to its value, if there is one. Of
two that are as near it is the larger. -/
def Interval.onGrid (i : Interval) (power : Int) : Option Nat :=
  let up := Nat.pow 10 power.toNat
  let down := Nat.pow 10 (-power).toNat
  let floor := i.value * down / (i.unit * up)
  let inside (n : Nat) : Bool := 0 < n && i.has (n * up) down
  let gapBelow := i.value * down - floor * i.unit * up
  let gapAbove := (floor + 1) * i.unit * up - i.value * down
  if inside floor && (!inside (floor + 1) || gapBelow < gapAbove) then some floor
  else if inside (floor + 1) then some (floor + 1) else none

/-- The digits and the power of ten of the shortest decimal in an interval: the coarsest grid on
which it has a point, down from `power`. -/
def Interval.shortest (i : Interval) : Nat → Int → Option (Nat × Int)
  | 0, _ => none
  | tries + 1, power =>
    match i.onGrid power with
    | some digits => some (digits, power)
    | none => i.shortest tries (power - 1)

/-- `digits * 10 ^ power` written out, without exponent. -/
def positional (digits : Nat) (power : Int) : String :=
  let text := (toString digits).toList
  if 0 ≤ power then String.ofList (text ++ List.replicate power.toNat '0')
  else
    let places := (-power).toNat
    let padded := List.replicate (places + 1 - text.length) '0' ++ text
    let whole := padded.length - places
    String.ofList (padded.take whole ++ '.' :: padded.drop whole)

/-- The fewest digits that read back, written out, with at least one place after the point. -/
def text : Binary64 → String
  | .nan => "NaN"
  | .infinite negative => if negative then "-inf" else "inf"
  | .finite negative significand exponent =>
    let sign := if negative then "-" else ""
    match if significand = 0 then none else (interval significand exponent).shortest 700 309 with
    | none => sign ++ "0.0"
    | some (digits, power) =>
      sign ++ positional digits power ++ (if 0 ≤ power then ".0" else "")

end ResourceNames.Binary64

namespace ResourceNames

/-- A double: `significand * 2 ^ exponent` with the sign apart, or one of the values that are no
numbers. -/
inductive Binary64
  | nan
  | infinite (negative : Bool)
  | finite (negative : Bool) (significand : Nat) (exponent : Int)
deriving DecidableEq, Repr

namespace Binary64

/-- The least exponent, that of the numbers around zero. -/
def minExponent : Int := -1074

/-- The greatest exponent of a finite number. -/
def maxExponent : Int := 971

/-- What the leading one of the fifty-three bits of a significand counts for. -/
def leadingBit : Nat := 0x10000000000000

/-- The integer nearest to `num / den`, the even one if two are as near. -/
def roundDiv (num den : Nat) : Nat :=
  let quotient := num / den
  let twice := 2 * (num % den)
  if twice < den then quotient
  else if den < twice then quotient + 1
  else if quotient % 2 = 0 then quotient else quotient + 1

/-- `num / den * 2 ^ (-e)`, rounded. -/
def scaled (num den : Nat) (e : Int) : Nat :=
  if 0 ≤ e then roundDiv num (den * Nat.pow 2 e.toNat)
  else roundDiv (num * Nat.pow 2 (-e).toNat) den

/-- The double nearest to `num / den`. -/
def nearest (negative : Bool) (num den : Nat) : Binary64 :=
  if num = 0 then .finite negative 0 minExponent
  else
    let high : Int := num.log2 - den.log2 - 52
    let fits := if 0 ≤ high then den * Nat.pow 2 high.toNat * leadingBit ≤ num
      else den * leadingBit ≤ num * Nat.pow 2 (-high).toNat
    let e := max (if fits then high else high - 1) minExponent
    let significand := scaled num den e
    let (significand, e) :=
      if significand = 2 * leadingBit then (leadingBit, e + 1) else (significand, e)
    if maxExponent < e then .infinite negative else .finite negative significand e

/-- The double nearest to `digits * 10 ^ e`. Exponents far outside the range of doubles are settled
by the number of digits alone. -/
def ofDecimal (negative : Bool) (digits : Nat) (e : Int) : Binary64 :=
  let magnitude : Int := (Nat.toDigits 10 digits).length + e
  if digits = 0 ∨ magnitude < -330 then .finite negative 0 minExponent
  else if 310 < magnitude then .infinite negative
  else if 0 ≤ e then nearest negative (digits * Nat.pow 10 e.toNat) 1
  else nearest negative digits (Nat.pow 10 (-e).toNat)

end Binary64

end ResourceNames

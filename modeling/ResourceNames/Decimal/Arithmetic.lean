import ResourceNames.Decimal.Binary64

namespace ResourceNames.Binary64

def ofNat (n : Nat) : Binary64 :=
  nearest false n 1

/-- The magnitude of a finite double as numerator and denominator. -/
def fraction (significand : Nat) (exponent : Int) : Nat × Nat :=
  (significand * Nat.pow 2 exponent.toNat, Nat.pow 2 (-exponent).toNat)

/-- Sums, products and quotients are the exact ones, rounded once. -/
def sum : Binary64 → Binary64 → Binary64
  | .nan, _ => .nan
  | _, .nan => .nan
  | .infinite s, .infinite t => if s = t then .infinite s else .nan
  | .infinite s, .finite .. => .infinite s
  | .finite .., .infinite t => .infinite t
  | .finite s m e, .finite t n f =>
    let (a, b) := fraction m e
    let (c, d) := fraction n f
    let signed (negative : Bool) (magnitude : Nat) : Int :=
      if negative then -magnitude else magnitude
    let total := signed s (a * d) + signed t (c * b)
    nearest (if total = 0 then s && t else total < 0) total.natAbs (b * d)

def product : Binary64 → Binary64 → Binary64
  | .nan, _ => .nan
  | _, .nan => .nan
  | .infinite s, .infinite t => .infinite (s != t)
  | .infinite s, .finite t n _ => if n = 0 then .nan else .infinite (s != t)
  | .finite s m _, .infinite t => if m = 0 then .nan else .infinite (s != t)
  | .finite s m e, .finite t n f =>
    let (a, b) := fraction m e
    let (c, d) := fraction n f
    nearest (s != t) (a * c) (b * d)

def quotient : Binary64 → Binary64 → Binary64
  | .nan, _ => .nan
  | _, .nan => .nan
  | .infinite _, .infinite _ => .nan
  | .infinite s, .finite t _ _ => .infinite (s != t)
  | .finite s _ _, .infinite t => .finite (s != t) 0 minExponent
  | .finite s m e, .finite t n f =>
    if n = 0 then if m = 0 then .nan else .infinite (s != t)
    else
      let (a, b) := fraction m e
      let (c, d) := fraction n f
      nearest (s != t) (a * d) (b * c)

/-- The interchange format: a sign bit, eleven bits for the exponent and fifty-two for the
significand, whose leading bit is understood. -/
def bits : Binary64 → Nat
  | .nan => 0x7ff8000000000000
  | .infinite negative => signBit negative + 0x7ff0000000000000
  | .finite negative significand exponent =>
    signBit negative +
      if significand < leadingBit then significand
      else (exponent - minExponent + 1).toNat * leadingBit + (significand - leadingBit)
where
  signBit (negative : Bool) : Nat := if negative then 0x8000000000000000 else 0

end ResourceNames.Binary64

import ResourceNames.Decimal.Binary64
import ResourceNames.Toml.Reader

namespace ResourceNames.Toml

/-- The further digits of a number. An underscore may stand between two digits only. -/
def moreDigits (isDigit : Char → Bool) : List Char → Option (List Char × List Char)
  | '_' :: c :: rest =>
    if isDigit c then (moreDigits isDigit rest).map fun (digits, behind) => (c :: digits, behind)
    else none
  | c :: rest =>
    if c = '_' then none
    else if isDigit c then
      (moreDigits isDigit rest).map fun (digits, behind) => (c :: digits, behind)
    else some ([], c :: rest)
  | [] => some ([], [])

/-- One digit or more. -/
def digits (isDigit : Char → Bool) : Reader (List Char)
  | c :: rest =>
    if isDigit c then (moreDigits isDigit rest).map fun (digits, behind) => (c :: digits, behind)
    else none
  | [] => none

/-- Digits of a base up to sixteen. -/
def digitValue (c : Char) : Nat :=
  if isDigit c then c.toNat - '0'.toNat
  else if 'a' ≤ c ∧ c ≤ 'f' then c.toNat - 'a'.toNat + 10
  else c.toNat - 'A'.toNat + 10

def natValue (base : Nat) (digits : List Char) : Nat :=
  digits.foldl (fun value c => base * value + digitValue c) 0

/-- A sign, which is negative or not, and the text behind it. -/
def sign : List Char → Bool × List Char
  | '-' :: rest => (true, rest)
  | '+' :: rest => (false, rest)
  | text => (false, text)

/-- The digits of a decimal integer, in which no zero stands in front. -/
def decimalDigits : Reader (List Char)
  | '0' :: rest => some (['0'], rest)
  | text => digits isDigit text

def maxInteger : Int := 0x7fffffffffffffff

def minInteger : Int := -0x8000000000000000

/-- Integers beyond 64 bits are refused. -/
def inRange (value : Int) : Option Int :=
  if minInteger ≤ value ∧ value ≤ maxInteger then some value else none

def isHexDigit (c : Char) : Bool :=
  isDigit c || ('a' ≤ c && c ≤ 'f') || ('A' ≤ c && c ≤ 'F')

def isOctalDigit (c : Char) : Bool :=
  '0' ≤ c && c ≤ '7'

def isBinaryDigit (c : Char) : Bool :=
  c = '0' || c = '1'

/-- A decimal integer with a sign, or one of another base without. -/
def integer (text : List Char) : Option (Int × List Char) :=
  match text with
  | '0' :: 'x' :: rest => based 16 isHexDigit rest
  | '0' :: 'o' :: rest => based 8 isOctalDigit rest
  | '0' :: 'b' :: rest => based 2 isBinaryDigit rest
  | _ => do
    let (negative, rest) := sign text
    let (digits, rest) ← decimalDigits rest
    let magnitude : Int := natValue 10 digits
    some (← inRange (if negative then -magnitude else magnitude), rest)
where
  based (base : Nat) (isDigit : Char → Bool) (text : List Char) : Option (Int × List Char) := do
    let (digits, rest) ← digits isDigit text
    some (← inRange (natValue base digits), rest)

/-- The exponent of a number and the text behind it. -/
def exponent? : Reader Int
  | c :: rest =>
    if c = 'e' ∨ c = 'E' then do
      let (negative, rest) := sign rest
      let (digits, rest) ← digits isDigit rest
      let magnitude : Int := natValue 10 digits
      some (if negative then -magnitude else magnitude, rest)
    else none
  | [] => none

/-- The places behind a decimal point and the text behind them. -/
def fraction? : Reader (List Char)
  | '.' :: rest => digits isDigit rest
  | _ => none

/-- A number with a decimal point or an exponent; `inf` and `nan` are numbers too. A number too
great for a double is refused unless it is negative. -/
def float (text : List Char) : Option (Binary64 × List Char) :=
  let (negative, unsigned) := sign text
  match unsigned with
  | 'i' :: 'n' :: 'f' :: rest => some (.infinite negative, rest)
  | 'n' :: 'a' :: 'n' :: rest => some (.nan, rest)
  | _ => do
    let (whole, rest) ← decimalDigits unsigned
    let (places, rest) := (fraction? rest).getD ([], rest)
    let (power, rest) ←
      if places.isEmpty then exponent? rest else some ((exponent? rest).getD (0, rest))
    let value := Binary64.ofDecimal negative (natValue 10 (whole ++ places)) (power - places.length)
    if value = .infinite false then none else some (value, rest)

end ResourceNames.Toml

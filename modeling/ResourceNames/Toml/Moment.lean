import ResourceNames.Toml.Reader

namespace ResourceNames.Toml

/-- The number of exactly `count` digits, if it lies between `low` and `high`. -/
def fixedDigits (count low high : Nat) : Reader Nat := fun text =>
  let digits := text.take count
  let value := digits.foldl (fun value c => 10 * value + (c.toNat - '0'.toNat)) 0
  if digits.length = count ∧ digits.all isDigit ∧ low ≤ value ∧ value ≤ high then
    some (value, text.drop count)
  else none

def daysInMonth (year month : Nat) : Nat :=
  if month = 2 then
    if year % 4 = 0 ∧ (year % 100 ≠ 0 ∨ year % 400 = 0) then 29 else 28
  else if month = 4 ∨ month = 6 ∨ month = 9 ∨ month = 11 then 30 else 31

/-- The text behind a date. -/
def date? (text : List Char) : Option (List Char) := do
  let (year, rest) ← fixedDigits 4 0 9999 text
  let (month, rest) ← fixedDigits 2 1 12 (← expect? '-' rest)
  let (_, rest) ← fixedDigits 2 1 (daysInMonth year month) (← expect? '-' rest)
  some rest

/-- The text behind a time of day; a minute may have a leap second. -/
def time? (text : List Char) : Option (List Char) := do
  let (_, rest) ← fixedDigits 2 0 23 text
  let (_, rest) ← fixedDigits 2 0 59 (← expect? ':' rest)
  let (_, rest) ← fixedDigits 2 0 60 (← expect? ':' rest)
  match rest with
  | '.' :: places =>
    some (if places.head?.any isDigit then places.dropWhile isDigit else rest)
  | _ => some rest

/-- The text behind a distance from universal time. -/
def offset? : List Char → Option (List Char)
  | 'Z' :: rest => some rest
  | 'z' :: rest => some rest
  | c :: rest =>
    if c = '+' ∨ c = '-' then do
      let (_, rest) ← fixedDigits 2 0 23 rest
      let (_, rest) ← fixedDigits 2 0 59 (← expect? ':' rest)
      some rest
    else none
  | [] => none

/-- The text behind a time of day that belongs to a date. -/
def timeOfDate? : List Char → Option (List Char)
  | c :: rest =>
    if c = 'T' ∨ c = 't' ∨ c = ' ' then do
      let rest ← time? rest
      some ((offset? rest).getD rest)
    else none
  | [] => none

/-- The text behind a date, a date with a time, or a time. They are recognised and checked, and
nothing of them is kept. -/
def moment? (text : List Char) : Option (List Char) :=
  match date? text with
  | some rest => some ((timeOfDate? rest).getD rest)
  | none => time? text

end ResourceNames.Toml

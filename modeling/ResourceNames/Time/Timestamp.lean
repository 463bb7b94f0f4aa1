import ResourceNames.Time.Span

namespace ResourceNames

/-- A point in time: seconds since the beginning of 1970, and nanoseconds into the second. Inside a
leap second, which follows the last second of a minute, the nanoseconds are a whole second more. -/
structure Timestamp where
  seconds : Int
  nanoseconds : Nat := 0
deriving DecidableEq, Repr, Inhabited

/-- A day of the calendar. -/
structure Date where
  year : Int
  month : Nat
  day : Nat
deriving DecidableEq, Repr

/-- The date so many days after the first of January 1970. Years are taken to begin in March, so
that a leap day is the last of its year, and are counted in eras of four hundred. -/
def Date.ofDays (days : Int) : Date :=
  let shifted := days + 719468
  let era := shifted.fdiv 146097
  let dayOfEra := (shifted.fmod 146097).toNat
  let yearOfEra := (dayOfEra - dayOfEra / 1460 + dayOfEra / 36524 - dayOfEra / 146096) / 365
  let dayOfYear := dayOfEra - (365 * yearOfEra + yearOfEra / 4 - yearOfEra / 100)
  let month := (5 * dayOfYear + 2) / 153
  let year : Int := yearOfEra + era * 400
  { year := if month < 10 then year else year + 1
    month := if month < 10 then month + 3 else month - 9
    day := dayOfYear - (153 * month + 2) / 5 + 1 }

namespace Timestamp

/-- A number with zeros in front up to `width` digits. -/
def padded (width n : Nat) : String :=
  let digits := toString n
  String.ofList (List.replicate (width - digits.length) '0') ++ digits

/-- Years have four digits, and a sign if they are not among those that four digits can tell. -/
def yearText (year : Int) : String :=
  if year < 0 then "-" ++ padded 4 year.natAbs
  else if 9999 < year then s!"+{year}"
  else padded 4 year.toNat

/-- No decimals, or three, six or nine of them: the fewest that are exact. -/
def fractionText (nanoseconds : Nat) : String :=
  if nanoseconds = 0 then ""
  else if nanoseconds % 1000000 = 0 then "." ++ padded 3 (nanoseconds / 1000000)
  else if nanoseconds % 1000 = 0 then "." ++ padded 6 (nanoseconds / 1000)
  else "." ++ padded 9 nanoseconds

/-- The first second of the year -262143 and the last of the year 262142, between which all points
in time lie. -/
def firstSecond : Int := -8334601228800
def lastSecond : Int := 8210266876799

/-- The point in time with these seconds and nanoseconds, if there is one. -/
def of? (seconds : Int) (nanoseconds : Nat) : Option Timestamp :=
  let limit := if seconds.fmod 60 = 59 then 2 * Span.second else Span.second
  if firstSecond ≤ seconds ∧ seconds ≤ lastSecond ∧ nanoseconds < limit then
    some ⟨seconds, nanoseconds⟩
  else none

/-- Date and time of day in UTC, without the zone. A leap second is the sixtieth of its minute. -/
def dateTime (moment : Timestamp) : String :=
  let date := Date.ofDays (moment.seconds.fdiv 86400)
  let second := (moment.seconds.fmod 86400).toNat
  let secondOfMinute := second % 60 + moment.nanoseconds / Span.second
  s!"{yearText date.year}-{padded 2 date.month}-{padded 2 date.day}T" ++
    s!"{padded 2 (second / 3600)}:{padded 2 (second / 60 % 60)}:{padded 2 secondOfMinute}" ++
    fractionText (moment.nanoseconds % Span.second)

/-- Date and time of day as the internet writes them. -/
def text (moment : Timestamp) : String :=
  moment.dateTime ++ "Z"

/-- The same with the zone given by its distance from UTC, which is none. -/
def textWithOffset (moment : Timestamp) : String :=
  moment.dateTime ++ "+00:00"

end Timestamp

end ResourceNames

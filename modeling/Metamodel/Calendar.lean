/-!
# Calendar

Instants in milliseconds from the start of 1970, in the proleptic Gregorian calendar, and their
ISO text with milliseconds: `2020-01-31T23:59:59.999Z`, the year with a sign and six digits
outside 0 to 9999.
-/

namespace Metamodel.Calendar

/-- The largest distance from 1970 in milliseconds that an instant can have. -/
def maxInstant : Nat := 8640000000000000

/-- Milliseconds of a day. -/
def dayLength : Int := 86400000

/-- A date of the proleptic Gregorian calendar. -/
structure Date where
  year : Int
  month : Nat
  day : Nat
  deriving DecidableEq

/-- The date of a day counted from 1970-01-01. Years are taken to begin in March, so that the leap
day is the last one, and days are counted in eras of 400 years. -/
def dateOfDay (n : Int) : Date :=
  let z := n + 719468
  let era := z.fdiv 146097
  let dayOfEra := (z - era * 146097).toNat
  let yearOfEra :=
    (dayOfEra - dayOfEra / 1460 + dayOfEra / 36524 - dayOfEra / 146096) / 365
  let dayOfYear := dayOfEra - (365 * yearOfEra + yearOfEra / 4 - yearOfEra / 100)
  let shifted := (5 * dayOfYear + 2) / 153
  let month := if shifted < 10 then shifted + 3 else shifted - 9
  let year := era * 400 + yearOfEra + (if month ≤ 2 then 1 else 0)
  ⟨year, month, dayOfYear - (153 * shifted + 2) / 5 + 1⟩

/-- A number with zeros in front up to a width. -/
def padded (width n : Nat) : String :=
  let ds := Nat.toDigits 10 n
  String.ofList (List.replicate (width - ds.length) '0' ++ ds)

/-- A year: four digits, or a sign and six. -/
def yearText (year : Int) : String :=
  if 0 ≤ year ∧ year ≤ 9999 then padded 4 year.toNat
  else (if year < 0 then "-" else "+") ++ padded 6 year.natAbs

/-- The ISO text of an instant, or nothing when it is out of range. -/
def isoText? (instant : Int) : Option String :=
  if maxInstant < instant.natAbs then none
  else
    let date := dateOfDay (instant.fdiv dayLength)
    let ms := (instant.fmod dayLength).toNat
    some (yearText date.year ++ "-" ++ padded 2 date.month ++ "-" ++ padded 2 date.day ++ "T" ++
      padded 2 (ms / 3600000) ++ ":" ++ padded 2 (ms / 60000 % 60) ++ ":" ++
      padded 2 (ms / 1000 % 60) ++ "." ++ padded 3 (ms % 1000) ++ "Z")

end Metamodel.Calendar

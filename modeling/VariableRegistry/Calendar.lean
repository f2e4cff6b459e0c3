/-
# Calendar dates

Dates of the Gregorian calendar, carried on before its introduction, and the number of days
between a date and the first of January 1970. A date is written as year, month and day with
hyphens between them.
-/
import VariableRegistry.Numeral

namespace VariableRegistry

/-! ## Dates -/

/-- A year, a month from one and a day from one. -/
structure Date where
  year : Int
  month : Nat
  day : Nat
deriving DecidableEq, Repr

namespace Date

/-- Whether a year has a twenty-ninth of February. -/
def isLeapYear (year : Int) : Bool :=
  year % 4 = 0 && (year % 100 ≠ 0 || year % 400 = 0)

/-- The number of days of a month. -/
def daysInMonth (year : Int) (month : Nat) : Nat :=
  if month = 2 then if isLeapYear year then 29 else 28
  else if month = 4 || month = 6 || month = 9 || month = 11 then 30
  else 31

/-- The first year that dates reach. -/
def minYear : Int := -262143

/-- The last year that dates reach. -/
def maxYear : Int := 262142

/-- Whether the day exists. -/
def isValid (d : Date) : Bool :=
  minYear ≤ d.year && d.year ≤ maxYear && 1 ≤ d.month && d.month ≤ 12 && 1 ≤ d.day &&
    d.day ≤ daysInMonth d.year d.month

/-! ## Day numbers -/

/-- The days from the first of January of the year zero to that of another year: every fourth
year brings one more than 365, except every hundredth, except every four hundredth. -/
def daysBeforeYear (year : Int) : Int :=
  365 * year + (year + 3) / 4 - (year + 99) / 100 + (year + 399) / 400

/-- The days of a year before a month. -/
def daysBeforeMonth (year : Int) (month : Nat) : Nat :=
  (List.range (month - 1)).foldl (fun days m => days + daysInMonth year (m + 1)) 0

/-- The days from the first of January of the year zero to that of 1970. -/
def epoch : Int := 719528

/-- The days from the first of January 1970 to a date. -/
def dayNumber (d : Date) : Int :=
  daysBeforeYear d.year - epoch + daysBeforeMonth d.year d.month + ((d.day : Int) - 1)

/-- The year in which the day lies that comes `days` days after the beginning of the year zero. -/
def yearOfDay (days : Int) : Int :=
  let guess := days * 400 / 146097
  if days < daysBeforeYear guess then guess - 1
  else if daysBeforeYear (guess + 1) ≤ days then guess + 1
  else guess

/-- The month and the day of the month that are `rest` days after the first of `month`. -/
def monthAndDay (year : Int) : Nat → Nat → Nat → Nat × Nat
  | 0, month, rest => (month, rest + 1)
  | left + 1, month, rest =>
    if rest < daysInMonth year month then (month, rest + 1)
    else monthAndDay year left (month + 1) (rest - daysInMonth year month)

/-- The date a number of days after the first of January 1970. -/
def ofDayNumber (n : Int) : Date :=
  let days := n + epoch
  let year := yearOfDay days
  let (month, day) := monthAndDay year 11 1 (days - daysBeforeYear year).toNat
  ⟨year, month, day⟩

/-! ## Seconds -/

/-- The seconds of a day. -/
def secondsPerDay : Int := 86400

/-- The seconds from the beginning of 1970 to the midnight on which a date begins. -/
def seconds (d : Date) : Int := secondsPerDay * d.dayNumber

/-- The date on which a moment falls, if dates reach that far. -/
def ofSeconds? (n : Int) : Option Date :=
  let d := ofDayNumber (n / secondsPerDay)
  if minYear ≤ d.year ∧ d.year ≤ maxYear then some d else none

/-! ## Text -/

/-- A year of at least four digits, with a sign unless it has exactly four and is not negative. -/
def yearChars (year : Int) : List Char :=
  let digits := Numeral.padded 4 (Nat.toDigits 10 year.natAbs)
  if year < 0 then '-' :: digits
  else if 9999 < year then '+' :: digits
  else digits

/-- A date with hyphens between year, month and day. -/
def chars (d : Date) : List Char :=
  yearChars d.year ++ '-' :: Numeral.padded 2 (Nat.toDigits 10 d.month)
    ++ '-' :: Numeral.padded 2 (Nat.toDigits 10 d.day)

/-- Reads at least one and at most `width` digits. -/
def takeNumber (width : Nat) (cs : List Char) : Option (Nat × List Char) :=
  let digits := (cs.take width).takeWhile Char.isDigit
  if digits.isEmpty then none
  else some (Nat.ofDigitChars 10 digits 0, cs.drop digits.length)

/-- Reads a year: blanks, then any number of digits behind a sign or up to four without one. -/
def takeYear (cs : List Char) : Option (Int × List Char) :=
  match Text.trimStart cs with
  | '-' :: rest => (takeNumber rest.length rest).map fun (n, left) => (-(n : Int), left)
  | '+' :: rest => (takeNumber rest.length rest).map fun (n, left) => ((n : Int), left)
  | rest => (takeNumber 4 rest).map fun (n, left) => ((n : Int), left)

/-- Reads a hyphen, blanks and up to two digits. -/
def takePart : List Char → Option (Nat × List Char)
  | '-' :: rest => takeNumber 2 (Text.trimStart rest)
  | _ => none

/-- Reads the text of a date that exists. -/
def ofChars? (cs : List Char) : Option Date :=
  (takeYear cs).bind fun (year, cs) =>
  (takePart cs).bind fun (month, cs) =>
  (takePart cs).bind fun (day, cs) =>
  let d : Date := ⟨year, month, day⟩
  if cs.isEmpty && d.isValid then some d else none

end Date

end VariableRegistry

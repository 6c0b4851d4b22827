namespace Syndication

/-- A civil date. The fields are numbered as they are written: months and days from one. -/
structure CivilDate where
  year : Int
  month : Nat
  day : Nat
deriving DecidableEq, Repr

namespace CivilDate

def isLeapYear (year : Int) : Bool := year % 4 = 0 && (year % 100 ≠ 0 || year % 400 = 0)

def daysInMonth (year : Int) (month : Nat) : Nat :=
  if month = 2 then (if isLeapYear year then 29 else 28)
  else if month = 4 ∨ month = 6 ∨ month = 9 ∨ month = 11 then 30
  else 31

/-- Whether the calendar has this date. -/
def Exists (date : CivilDate) : Prop :=
  1 ≤ date.month ∧ date.month ≤ 12 ∧ 1 ≤ date.day ∧ date.day ≤ daysInMonth date.year date.month

instance (date : CivilDate) : Decidable date.Exists := by unfold Exists; infer_instance

/-- Days from the first of March to the first day of the month that lies `months` later. -/
def daysBefore (months : Int) : Int := (153 * months + 2) / 5

/-- Days from the first of March of year zero to that of `year`. -/
def daysToYear (year : Int) : Int := 365 * year + year / 4 - year / 100 + year / 400

/-- From the first of March of year zero to the first of January 1970. -/
def epochDays : Int := 719468

/-- Days since the first of January 1970. -/
def toDays (date : CivilDate) : Int :=
  let months : Int := ((date.month : Int) + 9) % 12
  let year := if date.month ≤ 2 then date.year - 1 else date.year
  daysToYear year + daysBefore months + (date.day - 1) - epochDays

/-- The date of a day. A cycle of 400 years has 146097 days. -/
def ofDays (days : Int) : CivilDate :=
  let shifted := days + epochDays
  let cycle := shifted / 146097
  let dayOfCycle := shifted % 146097
  let yearOfCycle :=
    (dayOfCycle - dayOfCycle / 1460 + dayOfCycle / 36524 - dayOfCycle / 146096) / 365
  let dayOfYear := dayOfCycle - daysToYear yearOfCycle
  let months := (5 * dayOfYear + 2) / 153
  let month := if months < 10 then months + 3 else months - 9
  let year := yearOfCycle + cycle * 400
  ⟨if month ≤ 2 then year + 1 else year, month.toNat, (dayOfYear - daysBefore months + 1).toNat⟩

end CivilDate

end Syndication

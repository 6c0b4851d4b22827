import Mathlib.Tactic.IntervalCases
import Syndication.Time.Calendar

namespace Syndication.CivilDate

theorem isLeapYear_iff {year : Int} :
    isLeapYear year = true ↔ year % 4 = 0 ∧ (year % 100 ≠ 0 ∨ year % 400 = 0) := by
  simp [isLeapYear]

theorem daysInMonth_le (year : Int) (month : Nat) : daysInMonth year month ≤ 31 := by
  unfold daysInMonth
  split_ifs <;> decide

/-- A day of a cycle of 400 years, by its century, the leap period of that century, the year of the
period, and the day of the year. Only the last year of a period can have 366 days. -/
structure Place where
  century : Int
  period : Int
  year : Int
  day : Int

namespace Place

def dayOfCycle (p : Place) : Int := 36524 * p.century + 1461 * p.period + 365 * p.year + p.day

def yearOfCycle (p : Place) : Int := 100 * p.century + 4 * p.period + p.year

structure InCycle (p : Place) : Prop where
  century : 0 ≤ p.century ∧ p.century ≤ 3
  period : 0 ≤ p.period ∧ p.period ≤ 24
  year : 0 ≤ p.year ∧ p.year ≤ 3
  day : 0 ≤ p.day ∧ p.day ≤ 365
  /-- The last period of a century has no leap day, unless it is the last of the cycle. -/
  leap : p.day = 365 → p.year = 3 ∧ (p.period < 24 ∨ p.century = 3)

theorem exists_dayOfCycle {d : Int} (low : 0 ≤ d) (high : d < 146097) :
    ∃ p : Place, p.InCycle ∧ p.dayOfCycle = d := by
  let century := min 3 (d / 36524)
  let period := (d - 36524 * century) / 1461
  let year := min 3 ((d - 36524 * century - 1461 * period) / 365)
  refine ⟨⟨century, period, year, d - 36524 * century - 1461 * period - 365 * year⟩, ?_, ?_⟩
  · constructor <;> simp only [century, period, year] <;> omega
  · simp only [dayOfCycle]
    omega

variable {p : Place} (inCycle : p.InCycle)
include inCycle

theorem daysToYear_eq (cycle : Int) : daysToYear (p.yearOfCycle + 400 * cycle) =
    p.dayOfCycle - p.day + 146097 * cycle := by
  obtain ⟨_, _, _, _, _⟩ := inCycle
  simp only [daysToYear, yearOfCycle, dayOfCycle]
  omega

/-- The year in which a day lies, from the number of the day. -/
theorem yearOfCycle_eq : (p.dayOfCycle - p.dayOfCycle / 1460 + p.dayOfCycle / 36524 -
    p.dayOfCycle / 146096) / 365 = p.yearOfCycle := by
  obtain ⟨_, _, _, _, _⟩ := inCycle
  simp only [yearOfCycle, dayOfCycle]
  -- a period of 1461 days has one day more than the divisor, so that the quotient may run ahead
  by_cases ahead : 24 * p.century + p.period + 365 * p.year + p.day < 1460
  · have periods : (36524 * p.century + 1461 * p.period + 365 * p.year + p.day) / 1460 =
        25 * p.century + p.period := by omega
    have centuries : (36524 * p.century + 1461 * p.period + 365 * p.year + p.day) / 36524 =
        p.century := by omega
    have cycles : (36524 * p.century + 1461 * p.period + 365 * p.year + p.day) / 146096 = 0 := by
      omega
    rw [periods, centuries, cycles]
    omega
  · have periods : (36524 * p.century + 1461 * p.period + 365 * p.year + p.day) / 1460 =
        25 * p.century + p.period + 1 := by omega
    rw [periods]
    -- the last day of the cycle is the leap day of the last century, and is counted as its own
    by_cases last : 36524 * p.century + 1461 * p.period + 365 * p.year + p.day = 146096
    · rw [last]
      omega
    · have centuries : (36524 * p.century + 1461 * p.period + 365 * p.year + p.day) / 36524 =
          p.century := by omega
      have cycles : (36524 * p.century + 1461 * p.period + 365 * p.year + p.day) / 146096 = 0 := by
        omega
      rw [centuries, cycles]
      omega

end Place

/-- The date of a day of a year that is counted from March. The months from March on have 153 days
in five of them. -/
def ofMarch (year dayOfYear : Int) : CivilDate :=
  let months := (5 * dayOfYear + 2) / 153
  let month := if months < 10 then months + 3 else months - 9
  ⟨if month ≤ 2 then year + 1 else year, month.toNat, (dayOfYear - daysBefore months + 1).toNat⟩

theorem ofDays_eq {p : Place} (inCycle : p.InCycle) (cycle : Int) :
    ofDays (p.dayOfCycle + 146097 * cycle - epochDays) =
      ofMarch (p.yearOfCycle + 400 * cycle) p.day := by
  have whole : (p.dayOfCycle + 146097 * cycle) / 146097 = cycle ∧
      (p.dayOfCycle + 146097 * cycle) % 146097 = p.dayOfCycle := by
    obtain ⟨_, _, _, _, _⟩ := inCycle
    simp only [Place.dayOfCycle]
    omega
  have day : p.dayOfCycle - daysToYear p.yearOfCycle = p.day := by
    have start := Place.daysToYear_eq inCycle 0
    simp only [Int.mul_zero, Int.add_zero] at start
    omega
  simp only [ofDays, Int.sub_add_cancel, whole.1, whole.2, Place.yearOfCycle_eq inCycle, day,
    Int.mul_comm cycle]
  rfl

theorem exists_place (days : Int) : ∃ (p : Place) (cycle : Int), p.InCycle ∧
    days = p.dayOfCycle + 146097 * cycle - epochDays := by
  obtain ⟨p, inCycle, same⟩ := Place.exists_dayOfCycle (d := (days + epochDays) % 146097)
    (by omega) (by omega)
  exact ⟨p, (days + epochDays) / 146097, inCycle, by omega⟩

section March

variable {year day : Int}

theorem toDays_ofMarch (low : 0 ≤ day) (high : day ≤ 365) :
    (ofMarch year day).toDays = daysToYear year + day - epochDays := by
  have dayOfMonth : ((day - daysBefore ((5 * day + 2) / 153) + 1).toNat : Int) =
      day - daysBefore ((5 * day + 2) / 153) + 1 :=
    Int.toNat_of_nonneg (by simp only [daysBefore]; omega)
  by_cases early : (5 * day + 2) / 153 < 10
  · have month : (((5 * day + 2) / 153 + 3).toNat : Int) = (5 * day + 2) / 153 + 3 :=
      Int.toNat_of_nonneg (by omega)
    have back : ((5 * day + 2) / 153 + 3 + 9) % 12 = (5 * day + 2) / 153 := by omega
    have within : ¬ (5 * day + 2) / 153 + 3 ≤ 2 := by omega
    have within' : ¬ ((5 * day + 2) / 153 + 3).toNat ≤ 2 := by omega
    simp only [ofMarch, toDays, if_pos early, if_neg within, if_neg within', month, back,
      dayOfMonth]
    omega
  · have month : (((5 * day + 2) / 153 - 9).toNat : Int) = (5 * day + 2) / 153 - 9 :=
      Int.toNat_of_nonneg (by omega)
    have back : ((5 * day + 2) / 153 - 9 + 9) % 12 = (5 * day + 2) / 153 := by omega
    have within : (5 * day + 2) / 153 - 9 ≤ 2 := by omega
    have within' : ((5 * day + 2) / 153 - 9).toNat ≤ 2 := by omega
    simp only [ofMarch, toDays, if_neg early, if_pos within, if_pos within', month, back,
      dayOfMonth, Int.add_sub_cancel]
    omega

theorem ofMarch_exists (low : 0 ≤ day) (high : day ≤ 365)
    (leap : day = 365 → isLeapYear (year + 1) = true) : (ofMarch year day).Exists := by
  have first : 0 ≤ (5 * day + 2) / 153 := by omega
  have final : (5 * day + 2) / 153 ≤ 11 := by omega
  generalize months : (5 * day + 2) / 153 = m at first final
  interval_cases m <;> simp [ofMarch, Exists, months, daysInMonth, daysBefore] <;> try omega
  -- the last month is February, and its last day is there in leap years only
  by_cases last : day = 365
  · simp [leap last, last]
  · split <;> omega

end March

/-- The day of a date is the day that the date was made from. -/
theorem toDays_ofDays (days : Int) : (ofDays days).toDays = days := by
  obtain ⟨p, cycle, inCycle, rfl⟩ := exists_place days
  rw [ofDays_eq inCycle, toDays_ofMarch inCycle.day.1 inCycle.day.2, Place.daysToYear_eq inCycle]
  omega

theorem ofDays_exists (days : Int) : (ofDays days).Exists := by
  obtain ⟨p, cycle, inCycle, rfl⟩ := exists_place days
  rw [ofDays_eq inCycle]
  refine ofMarch_exists inCycle.day.1 inCycle.day.2 fun last => ?_
  obtain ⟨_, _, _, _, leap⟩ := inCycle
  obtain ⟨_, _⟩ := leap last
  rw [isLeapYear_iff, Place.yearOfCycle]
  omega

section Years

variable {date : CivilDate} {year other days : Int}

/-- The day on which a year begins. -/
def newYear (year : Int) : Int := toDays ⟨year, 1, 1⟩

/-- Since years are counted from March, there are ten months of the year before until then. -/
theorem newYear_eq (year : Int) : newYear year = daysToYear (year - 1) + 306 - epochDays := by
  simp [newYear, toDays, daysBefore]

theorem newYear_mono (le : year ≤ other) : newYear year ≤ newYear other := by
  simp only [newYear_eq, daysToYear]
  omega

/-- A date lies between the days on which its year and the next one begin. -/
theorem Exists.between (exist : date.Exists) :
    newYear date.year ≤ date.toDays ∧ date.toDays < newYear (date.year + 1) := by
  obtain ⟨year, month, day⟩ := date
  obtain ⟨first, final, low, high⟩ := exist
  have bound := daysInMonth_le year month
  simp only [newYear_eq, toDays, daysToYear, daysBefore, Int.add_sub_cancel] at *
  interval_cases month <;> simp <;> omega

theorem year_ofDays_le_iff : (ofDays days).year ≤ year ↔ days < newYear (year + 1) := by
  obtain ⟨low, high⟩ := (ofDays_exists days).between
  rw [toDays_ofDays] at low high
  constructor
  · intro le
    exact high.trans_le (newYear_mono (by omega))
  · intro before
    by_contra beyond
    have begun : newYear (year + 1) ≤ newYear (ofDays days).year := newYear_mono (by omega)
    omega

theorem le_year_ofDays_iff : year ≤ (ofDays days).year ↔ newYear year ≤ days := by
  have before : (ofDays days).year ≤ year - 1 ↔ days < newYear (year - 1 + 1) := year_ofDays_le_iff
  rw [Int.sub_add_cancel] at before
  omega

end Years

end Syndication.CivilDate

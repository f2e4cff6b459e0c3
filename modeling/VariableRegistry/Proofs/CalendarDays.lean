/-
# Days of the calendar

The days of the calendar follow one another without a gap, and their numbers count them: every
number of days after or before the first of January 1970 is that of exactly one date, and every
date is found again from its number.
-/
import Mathlib.Logic.Function.Iterate
import Mathlib.Order.Monotone.Basic
import Mathlib.Tactic.SplitIfs
import VariableRegistry.Calendar

namespace VariableRegistry.Date

/-! ## The calendar -/

/-- The calendar has a date: its month has the day, where February has a twenty-ninth day in every
fourth year, except in every hundredth, except in every four hundredth. -/
def OnCalendar (d : Date) : Prop :=
  1 ≤ d.day ∧
    match d.month with
    | 1 | 3 | 5 | 7 | 8 | 10 | 12 => d.day ≤ 31
    | 4 | 6 | 9 | 11 => d.day ≤ 30
    | 2 => d.day ≤ 28 ∨ d.day = 29 ∧ 4 ∣ d.year ∧ (¬100 ∣ d.year ∨ 400 ∣ d.year)
    | _ => False

theorem isLeapYear_iff {year : Int} :
    isLeapYear year = true ↔ 4 ∣ year ∧ (¬100 ∣ year ∨ 400 ∣ year) := by
  simp only [isLeapYear, Bool.and_eq_true, Bool.or_eq_true, decide_eq_true_eq,
    Int.dvd_iff_emod_eq_zero]

/-- The calendar has a date if its month is one of the year and its day one of the month. -/
theorem onCalendar_iff {d : Date} :
    d.OnCalendar ↔
      1 ≤ d.month ∧ d.month ≤ 12 ∧ 1 ≤ d.day ∧ d.day ≤ daysInMonth d.year d.month := by
  obtain ⟨year, month, day⟩ := d
  unfold OnCalendar
  dsimp only
  rw [← isLeapYear_iff]
  split
  case h_13 hmonth =>
    -- no month of the year is left
    simp only [imp_false] at *
    simp only [and_false, false_iff]
    omega
  case h_12 =>
    cases hleap : isLeapYear year
    · simp [daysInMonth, hleap]
    · simp [daysInMonth, hleap]
      omega
  all_goals simp [daysInMonth]

instance (d : Date) : Decidable d.OnCalendar := decidable_of_iff _ onCalendar_iff.symm

theorem daysInMonth_le (year : Int) (month : Nat) : daysInMonth year month ≤ 31 := by
  unfold daysInMonth
  split_ifs <;> decide

/-- Two digits are enough for a month and a day. -/
theorem OnCalendar.le {d : Date} (h : d.OnCalendar) : d.month ≤ 12 ∧ d.day ≤ 31 := by
  obtain ⟨-, hmonth, -, hday⟩ := onCalendar_iff.1 h
  exact ⟨hmonth, Nat.le_trans hday (daysInMonth_le d.year d.month)⟩

/-- The date of the day after a date: the next day of the month, if there is one, and otherwise the
first day of the next month. -/
def next (d : Date) : Date :=
  if OnCalendar ⟨d.year, d.month, d.day + 1⟩ then ⟨d.year, d.month, d.day + 1⟩
  else if d.month < 12 then ⟨d.year, d.month + 1, 1⟩
  else ⟨d.year + 1, 1, 1⟩

/-- A date comes a number of days after the first of January 1970: so many steps from one day to
the next lead from there to the date or, where the number is negative, from the date to there. -/
def HasDayNumber (d : Date) (n : Int) : Prop :=
  next^[n.toNat] ⟨1970, 1, 1⟩ = next^[(-n).toNat] d

/-! ## Months and years -/

theorem daysBeforeMonth_succ (year : Int) {month : Nat} (h : 1 ≤ month) :
    daysBeforeMonth year (month + 1) = daysBeforeMonth year month + daysInMonth year month := by
  obtain ⟨m, rfl⟩ := Nat.exists_eq_add_of_le' h
  simp only [daysBeforeMonth, Nat.add_sub_cancel, List.range_succ, List.foldl_append,
    List.foldl_cons, List.foldl_nil]

/-- Later months begin later. -/
theorem monotone_daysBeforeMonth (year : Int) : Monotone (daysBeforeMonth year) := by
  apply monotone_nat_of_le_succ
  rintro (_ | month)
  · exact Nat.le_refl 0
  · rw [daysBeforeMonth_succ year (Nat.succ_pos month)]
    exact Nat.le_add_right _ _

/-- The days of all twelve months. -/
theorem daysBeforeMonth_thirteen (year : Int) :
    daysBeforeMonth year 13 = if isLeapYear year then 366 else 365 := by
  simp only [daysBeforeMonth, daysInMonth]
  cases isLeapYear year <;> rfl

/-- A year is as long as its months together. -/
theorem daysBeforeYear_succ (year : Int) :
    daysBeforeYear (year + 1) = daysBeforeYear year + daysBeforeMonth year 13 := by
  rw [daysBeforeMonth_thirteen]
  unfold daysBeforeYear
  by_cases hleap : isLeapYear year = true
  · have := isLeapYear_iff.1 hleap
    rw [if_pos hleap]
    omega
  · have := mt isLeapYear_iff.2 hleap
    rw [if_neg hleap]
    omega

/-- Later years begin later. -/
theorem daysBeforeYear_mono {year year' : Int} (h : year ≤ year') :
    daysBeforeYear year ≤ daysBeforeYear year' := by
  unfold daysBeforeYear
  omega

/-- The day lies in the year that is found for it. -/
theorem yearOfDay_spec (days : Int) :
    daysBeforeYear (yearOfDay days) ≤ days ∧ days < daysBeforeYear (yearOfDay days + 1) := by
  unfold yearOfDay
  -- the average year is so close that the guess is wrong by one at most
  have hlow : daysBeforeYear (days * 400 / 146097 - 1) ≤ days := by
    unfold daysBeforeYear
    omega
  have hhigh : days < daysBeforeYear (days * 400 / 146097 + 1 + 1) := by
    unfold daysBeforeYear
    omega
  dsimp only
  split_ifs with hbefore hafter
  · exact ⟨hlow, by rwa [Int.sub_add_cancel]⟩
  · exact ⟨hafter, hhigh⟩
  · exact ⟨by omega, by omega⟩

/-- The month and the day that are found lie as many days after the first of January. -/
theorem monthAndDay_spec {year : Int} {left month rest : Nat} (hfirst : 1 ≤ month)
    (hlast : month + left = 12)
    (hrest : daysBeforeMonth year month + rest < daysBeforeMonth year 13) :
    OnCalendar ⟨year, (monthAndDay year left month rest).1,
        (monthAndDay year left month rest).2⟩ ∧
      daysBeforeMonth year (monthAndDay year left month rest).1 +
        (monthAndDay year left month rest).2 = daysBeforeMonth year month + rest + 1 := by
  induction left generalizing month rest with
  | zero =>
    obtain rfl : month = 12 := hlast
    have hyear : daysBeforeMonth year 13 = daysBeforeMonth year 12 + daysInMonth year 12 :=
      daysBeforeMonth_succ year (by decide)
    simp only [monthAndDay, onCalendar_iff]
    omega
  | succ left ih =>
    rw [monthAndDay]
    by_cases hinside : rest < daysInMonth year month
    · simp only [if_pos hinside, onCalendar_iff]
      omega
    · -- the day lies in a later month
      have hnext := daysBeforeMonth_succ year hfirst
      rw [if_neg hinside]
      obtain ⟨hcalendar, hdays⟩ :=
        @ih (month + 1) (rest - daysInMonth year month) (by omega) (by omega) (by omega)
      exact ⟨hcalendar, by omega⟩

/-! ## Day numbers -/

variable {d d' : Date} {n : Int}

/-- The days of a year up to a date are within its month, and this month is within the year. -/
theorem dayOfYear_le (h : d.OnCalendar) :
    daysBeforeMonth d.year d.month + d.day ≤ daysBeforeMonth d.year (d.month + 1) ∧
      daysBeforeMonth d.year (d.month + 1) ≤ daysBeforeMonth d.year 13 := by
  obtain ⟨hfirst, hlast, -, hday⟩ := onCalendar_iff.1 h
  have hsucc := daysBeforeMonth_succ d.year hfirst
  exact ⟨by omega, monotone_daysBeforeMonth d.year (by omega)⟩

/-- A date lies in its year. -/
theorem dayNumber_bounds (h : d.OnCalendar) :
    daysBeforeYear d.year ≤ d.dayNumber + epoch ∧
      d.dayNumber + epoch < daysBeforeYear (d.year + 1) := by
  obtain ⟨hmonth, hyear⟩ := dayOfYear_le h
  have hday : 1 ≤ d.day := h.1
  rw [daysBeforeYear_succ]
  unfold dayNumber
  omega

/-- A date of an earlier month of the same year, or of an earlier year, has a smaller number. -/
theorem dayNumber_lt (h : d.OnCalendar) (h' : d'.OnCalendar)
    (hlt : d.year < d'.year ∨ d.year = d'.year ∧ d.month < d'.month) :
    d.dayNumber < d'.dayNumber := by
  rcases hlt with hyear | ⟨hyear, hmonth⟩
  · have hyears : daysBeforeYear (d.year + 1) ≤ daysBeforeYear d'.year :=
      daysBeforeYear_mono hyear
    have hbefore := (dayNumber_bounds h).2
    have hafter := (dayNumber_bounds h').1
    omega
  · have hmonths : daysBeforeMonth d.year (d.month + 1) ≤ daysBeforeMonth d.year d'.month :=
      monotone_daysBeforeMonth d.year hmonth
    have hbefore := (dayOfYear_le h).1
    have hafter : 1 ≤ d'.day := h'.1
    unfold dayNumber
    rw [← hyear]
    omega

/-- Dates with the same number are the same. -/
theorem eq_of_dayNumber (h : d.OnCalendar) (h' : d'.OnCalendar)
    (heq : d.dayNumber = d'.dayNumber) : d = d' := by
  have hbefore := mt (dayNumber_lt h h')
  have hafter := mt (dayNumber_lt h' h)
  obtain ⟨year, month, day⟩ := d
  obtain ⟨year', month', day'⟩ := d'
  dsimp only at hbefore hafter
  obtain rfl : year = year' := by omega
  obtain rfl : month = month' := by omega
  simp only [dayNumber] at heq
  obtain rfl : day = day' := by omega
  rfl

/-- The date with a number is on the calendar and has this number. -/
theorem ofDayNumber_spec (n : Int) :
    (ofDayNumber n).OnCalendar ∧ (ofDayNumber n).dayNumber = n := by
  obtain ⟨hlow, hhigh⟩ := yearOfDay_spec (n + epoch)
  rw [daysBeforeYear_succ] at hhigh
  unfold ofDayNumber
  dsimp only
  generalize yearOfDay (n + epoch) = year at hlow hhigh ⊢
  have hzero : daysBeforeMonth year 1 = 0 := rfl
  obtain ⟨hcalendar, hdays⟩ := @monthAndDay_spec year 11 1
    (n + epoch - daysBeforeYear year).toNat (Nat.le_refl 1) rfl (by omega)
  refine ⟨hcalendar, ?_⟩
  unfold dayNumber
  dsimp only
  omega

/-- A date is found again from its number. -/
theorem ofDayNumber_dayNumber (h : d.OnCalendar) : ofDayNumber d.dayNumber = d :=
  eq_of_dayNumber (ofDayNumber_spec _).1 h (ofDayNumber_spec _).2

/-! ## Counting days -/

/-- Every month has a first day. -/
theorem onCalendar_first (year : Int) {month : Nat} (hfirst : 1 ≤ month) (hlast : month ≤ 12) :
    OnCalendar ⟨year, month, 1⟩ := by
  refine onCalendar_iff.2 ⟨hfirst, hlast, Nat.le_refl 1, ?_⟩
  simp only [daysInMonth]
  split_ifs <;> decide

/-- At the end of the last day of a month the next month begins. -/
theorem daysBeforeMonth_of_last {year : Int} {month day : Nat} (h : OnCalendar ⟨year, month, day⟩)
    (hlast : ¬OnCalendar ⟨year, month, day + 1⟩) :
    daysBeforeMonth year (month + 1) = daysBeforeMonth year month + day := by
  rw [onCalendar_iff] at h hlast
  dsimp only at h hlast
  rw [daysBeforeMonth_succ year h.1]
  omega

/-- The next day has the next number. -/
theorem next_spec (h : d.OnCalendar) :
    d.next.OnCalendar ∧ d.next.dayNumber = d.dayNumber + 1 := by
  obtain ⟨year, month, day⟩ := d
  obtain ⟨hfirst, hlast, -, -⟩ := onCalendar_iff.1 h
  unfold next
  dsimp only at hfirst hlast ⊢
  split_ifs with hday hmonth
  · refine ⟨hday, ?_⟩
    simp only [dayNumber]
    omega
  · have hend := daysBeforeMonth_of_last h hday
    refine ⟨onCalendar_first year (by omega) (by omega), ?_⟩
    simp only [dayNumber]
    omega
  · have hend := daysBeforeMonth_of_last h hday
    obtain rfl : month = 12 := by omega
    refine ⟨onCalendar_first (year + 1) (by decide) (by decide), ?_⟩
    simp only [dayNumber, daysBeforeYear_succ, hend]
    have hzero : daysBeforeMonth (year + 1) 1 = 0 := rfl
    omega

theorem iterate_next_spec (h : d.OnCalendar) (k : Nat) :
    (next^[k] d).OnCalendar ∧ (next^[k] d).dayNumber = d.dayNumber + k := by
  induction k with
  | zero => exact ⟨h, (Int.add_zero _).symm⟩
  | succ k ih =>
    obtain ⟨hcalendar, hnumber⟩ := next_spec ih.1
    rw [Function.iterate_succ_apply', hnumber, ih.2]
    exact ⟨hcalendar, by omega⟩

/-- **The number of a date counts its days.** So many days lie between the first of January 1970 and
the date, counted day by day. -/
theorem hasDayNumber_iff (h : d.OnCalendar) : d.HasDayNumber n ↔ n = d.dayNumber := by
  have hstart : OnCalendar ⟨1970, 1, 1⟩ := by decide
  have hzero : dayNumber ⟨1970, 1, 1⟩ = 0 := by decide
  obtain ⟨hfrom, hleft⟩ := iterate_next_spec hstart n.toNat
  obtain ⟨hto, hright⟩ := iterate_next_spec h (-n).toNat
  unfold HasDayNumber
  constructor
  · intro hsame
    have hnumbers := congrArg dayNumber hsame
    omega
  · rintro rfl
    exact eq_of_dayNumber hfrom hto (by omega)

end VariableRegistry.Date

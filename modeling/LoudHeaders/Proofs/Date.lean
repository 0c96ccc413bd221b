import LoudHeaders.Date

/-
  Which times have a date that can be written.

  Dates are written for the years from 0 to 9999, but a time has a date far beyond
  these. The year of a day is read off its place in its cycle of 400 years
  (`year_ofDays`), so the days of the written years are those of one interval. A time
  outside its seconds, but still in the range of dates, is neither written nor unknown
  (`spell_eq_unwritable_iff`).
-/

namespace LoudHeaders

namespace CalendarDay

/-- The year of a cycle, counted from March, that a day of the cycle belongs to. -/
def marchYear (day : Nat) : Nat := (day - day / 1460 + day / 36524 - day / 146096) / 365

/-- The month, counted from March, that a day of the cycle belongs to. -/
def marchMonth (day : Nat) : Nat :=
  (5 * (day - (365 * marchYear day + marchYear day / 4 - marchYear day / 100)) + 2) / 153

theorem marchYear_lt {day : Nat} (h : day < 146097) : marchYear day < 400 := by
  unfold marchYear
  omega

theorem marchMonth_lt {day : Nat} (h : day < 146097) : marchMonth day < 12 := by
  unfold marchMonth marchYear
  omega

/-- January and February of the last year of a cycle are its last sixty days. -/
theorem last_days_iff {day : Nat} (h : day < 146097) :
    marchYear day = 399 ∧ 10 ≤ marchMonth day ↔ 146037 ≤ day := by
  constructor
  · rintro ⟨hyear, hmonth⟩
    unfold marchMonth at hmonth
    rw [hyear] at hmonth
    omega
  · intro hday
    have hyear : marchYear day = 399 := by
      unfold marchYear
      omega
    unfold marchMonth
    rw [hyear]
    omega

/-- A day lies in some cycle. The years of a cycle start with March, so from January on
the day belongs to the next year of the calendar. -/
theorem year_ofDays (days : Int) :
    ∃ cycle : Int, ∃ day : Nat, day < 146097 ∧ days + 719468 = 146097 * cycle + day ∧
      (ofDays days).year =
        400 * cycle + marchYear day + if 10 ≤ marchMonth day then 1 else 0 := by
  have hfdiv : (days + 719468).fdiv 146097 = (days + 719468) / 146097 :=
    Int.fdiv_eq_ediv_of_nonneg _ (by decide)
  refine ⟨(days + 719468) / 146097, ((days + 719468) % 146097).toNat, by omega, by omega, ?_⟩
  have hday : (days + 719468 - (days + 719468) / 146097 * 146097).toNat =
      ((days + 719468) % 146097).toNat := by omega
  have hlt : ((days + 719468) % 146097).toNat < 146097 := by omega
  have hmonth := marchMonth_lt hlt
  simp only [ofDays, hfdiv, hday]
  rw [← marchYear, ← marchMonth]
  split <;> split <;> omega

/-- The years before the year 0 are those of the days before its first. -/
theorem year_neg_iff {days : Int} : (ofDays days).year < 0 ↔ days < -719528 := by
  obtain ⟨cycle, day, hday, hdays, hyear⟩ := year_ofDays days
  have hlt := marchYear_lt hday
  have hlast := last_days_iff hday
  split at hyear <;> omega

/-- The years behind the year 9999 are those of the days behind its last. -/
theorem year_gt_iff {days : Int} : 9999 < (ofDays days).year ↔ 2932896 < days := by
  obtain ⟨cycle, day, hday, hdays, hyear⟩ := year_ofDays days
  have hlt := marchYear_lt hday
  have hlast := last_days_iff hday
  split at hyear <;> omega

end CalendarDay

namespace Date

/-- The first and the last second of the years from 0 to 9999. -/
def writable : Int × Int := (-62167219200, 253402300799)

/-- A time has a date without a written form exactly if it is in the range of dates and
its year is not one from 0 to 9999. -/
theorem spell_eq_unwritable_iff {seconds : Int} :
    spell seconds = .unwritable ↔
      range.1 ≤ seconds ∧ seconds ≤ range.2 ∧ (seconds < writable.1 ∨ writable.2 < seconds) := by
  have hfdiv : seconds.fdiv secondsPerDay = seconds / 86400 :=
    Int.fdiv_eq_ediv_of_nonneg _ (by decide)
  have hyear : ((CalendarDay.ofDays (seconds / 86400)).year < 0 ∨
      9999 < (CalendarDay.ofDays (seconds / 86400)).year) ↔
      (seconds < writable.1 ∨ writable.2 < seconds) := by
    rw [CalendarDay.year_neg_iff, CalendarDay.year_gt_iff]
    unfold writable
    omega
  unfold spell
  rw [hfdiv]
  split
  · rename_i hout
    simp only [reduceCtorEq, false_iff]
    simp only [Bool.or_eq_true, decide_eq_true_eq] at hout
    omega
  · rename_i hin
    simp only [Bool.or_eq_true, decide_eq_true_eq] at hin
    dsimp only
    split
    · rename_i hyears
      simp only [Bool.or_eq_true, decide_eq_true_eq] at hyears
      simp only [true_iff]
      exact ⟨by omega, by omega, hyear.mp hyears⟩
    · rename_i hyears
      simp only [Bool.or_eq_true, decide_eq_true_eq] at hyears
      simp only [reduceCtorEq, false_iff]
      rintro ⟨_, _, hwritable⟩
      exact hyears (hyear.mpr hwritable)

/-- There is no date exactly for the times outside the range. -/
theorem spell_eq_unknown_iff {seconds : Int} :
    spell seconds = .unknown ↔ seconds < range.1 ∨ range.2 < seconds := by
  unfold spell
  split
  · simp_all
  · dsimp only
    split <;> simp_all

end Date

end LoudHeaders

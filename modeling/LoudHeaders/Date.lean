import LoudHeaders.Text.Basic

/-
  Dates of commits.

  A commit's time counts seconds from the first day of 1970, in either
  direction. Dates exist for a bounded range of times only, and their written
  form only for the years from 0 to 9999: `Sun, 9 Sep 2001 01:46:40 +0000`.
-/

namespace LoudHeaders

/-- A day of the calendar. Months count from one. -/
structure CalendarDay where
  year : Int
  month : Nat
  day : Nat
  deriving DecidableEq, Repr

namespace CalendarDay

/-- The day a number of days after the first one of 1970. Years are counted
from March, so that the leap day comes last, in cycles of 400 years. -/
def ofDays (days : Int) : CalendarDay :=
  let shifted := days + 719468
  let cycle := shifted.fdiv 146097
  let dayOfCycle := (shifted - cycle * 146097).toNat
  let yearOfCycle :=
    (dayOfCycle - dayOfCycle / 1460 + dayOfCycle / 36524 - dayOfCycle / 146096) / 365
  let dayOfYear := dayOfCycle - (365 * yearOfCycle + yearOfCycle / 4 - yearOfCycle / 100)
  let monthFromMarch := (5 * dayOfYear + 2) / 153
  let day := dayOfYear - (153 * monthFromMarch + 2) / 5 + 1
  let month := if monthFromMarch < 10 then monthFromMarch + 3 else monthFromMarch - 9
  let year := cycle * 400 + yearOfCycle + (if month ≤ 2 then 1 else 0)
  { year, month, day }

end CalendarDay

namespace Date

/-- The number of seconds in a day. -/
def secondsPerDay : Int := 86400

/-- The first and the last second that has a date. -/
def range : Int × Int := (-8334601228800, 8210266876799)

/-- The names of the days of the week, starting with the first day of 1970. -/
def weekdayNames : List Text :=
  ["Thu".toList, "Fri".toList, "Sat".toList, "Sun".toList, "Mon".toList, "Tue".toList,
    "Wed".toList]

/-- The names of the months. -/
def monthNames : List Text :=
  ["Jan".toList, "Feb".toList, "Mar".toList, "Apr".toList, "May".toList, "Jun".toList,
    "Jul".toList, "Aug".toList, "Sep".toList, "Oct".toList, "Nov".toList, "Dec".toList]

/-- A number with at least `width` digits. -/
def padded (width n : Nat) : Text :=
  let digits := Text.ofNat n
  List.replicate (width - digits.length) '0' ++ digits

/-- What can be said about a time: a date, a date outside the years that have a
written form, or no date. -/
inductive Spelling where
  | written (text : Text)
  | unwritable
  | unknown
  deriving DecidableEq, Repr

/-- The date of a time in universal time. -/
def spell (seconds : Int) : Spelling :=
  if seconds < range.1 || range.2 < seconds then .unknown
  else
    let days := seconds.fdiv secondsPerDay
    let second := (seconds - days * secondsPerDay).toNat
    let d := CalendarDay.ofDays days
    if d.year < 0 || 9999 < d.year then .unwritable
    else
      let weekday := (weekdayNames[(days.fmod 7).toNat]?).getD []
      let month := (monthNames[d.month - 1]?).getD []
      .written
        (weekday ++ ", ".toList ++ Text.ofNat d.day ++ " ".toList ++ month ++ " ".toList ++
          padded 4 d.year.toNat ++ " ".toList ++ padded 2 (second / 3600) ++ ":".toList ++
          padded 2 (second / 60 % 60) ++ ":".toList ++ padded 2 (second % 60) ++
          " +0000".toList)

end Date

end LoudHeaders

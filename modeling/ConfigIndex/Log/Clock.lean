/-!
The time of a log line: date and time of day by universal time. Years are counted from March on, so
that a leap day is the last day of its year; four hundred years always have as many days.
-/

namespace ConfigIndex

structure Date where
  year : Nat
  month : Nat
  day : Nat
deriving DecidableEq, Repr

namespace Date

def daysBefore1970 : Nat := 719468

def daysOfFourCenturies : Nat := 146097

def ofDays (days : Nat) : Date :=
  let all := days + daysBefore1970
  let inside := all % daysOfFourCenturies
  let years := (inside - inside / 1460 + inside / 36524 - inside / 146096) / 365
  let inYear := inside - (365 * years + years / 4 - years / 100)
  let month := (5 * inYear + 2) / 153
  let isLate := 10 ≤ month
  { year := years + all / daysOfFourCenturies * 400 + if isLate then 1 else 0
    month := if isLate then month - 9 else month + 3
    day := inYear - (153 * month + 2) / 5 + 1 }

end Date

def zeroPadded (width number : Nat) : String :=
  let digits := toString number
  String.ofList (List.replicate (width - digits.length) '0') ++ digits

def clockText (seconds : Nat) : String :=
  let date := Date.ofDays (seconds / 86400)
  let time := seconds % 86400
  "-".intercalate [zeroPadded 4 date.year, zeroPadded 2 date.month, zeroPadded 2 date.day] ++ " " ++
    ":".intercalate
      [zeroPadded 2 (time / 3600), zeroPadded 2 (time / 60 % 60), zeroPadded 2 (time % 60)]

end ConfigIndex

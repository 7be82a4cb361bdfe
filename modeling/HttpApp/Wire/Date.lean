/-
  HttpApp/Wire/Date.lean --- dates in header fields.

  A date is written with its day of the week, and always in Greenwich time.
-/

set_option autoImplicit false

namespace HttpApp.Wire

/-- The names of the days, from the day of the week of the first day of 1970 on. -/
def dayNames : List String := ["Thu", "Fri", "Sat", "Sun", "Mon", "Tue", "Wed"]

def monthNames : List String :=
  ["Jan", "Feb", "Mar", "Apr", "May", "Jun", "Jul", "Aug", "Sep", "Oct", "Nov", "Dec"]

/-- Whether a year has a day more. -/
def isLeapYear (year : Nat) : Bool := (year % 4 == 0 && year % 100 != 0) || year % 400 == 0

def monthLengths (year : Nat) : List Nat :=
  [31, if isLeapYear year then 29 else 28, 31, 30, 31, 30, 31, 31, 30, 31, 30, 31]

/-- The number of days of a year. -/
def yearLength (year : Nat) : Nat := if isLeapYear year then 366 else 365

/-- The year of a day that is counted from the start of a year, and the day within it; at most
`fuel` years are passed. -/
def yearOf : Nat → Nat → Nat → Nat × Nat
  | 0, year, day => (year, day)
  | fuel + 1, year, day =>
    if day < yearLength year then (year, day) else yearOf fuel (year + 1) (day - yearLength year)

/-- The month of a day that is counted from the start of a month, and the day within it. -/
def monthOf : List Nat → Nat → Nat → Nat × Nat
  | [], month, day => (month, day)
  | n :: ns, month, day => if day < n then (month, day) else monthOf ns (month + 1) (day - n)

/-- A number in two digits. -/
def twoDigits (n : Nat) : String := toString (n / 10 % 10) ++ toString (n % 10)

/-- The date of a number of seconds since the start of 1970. -/
def date (seconds : Nat) : String :=
  let days := seconds / 86400
  let second := seconds % 86400
  let (year, day) := yearOf (days / 365 + 1) 1970 days
  let (month, day) := monthOf (monthLengths year) 0 day
  dayNames.getD (days % 7) "" ++ ", " ++ twoDigits (day + 1) ++ " " ++ monthNames.getD month "" ++
    " " ++ twoDigits (year / 100) ++ twoDigits (year % 100) ++ " " ++ twoDigits (second / 3600) ++
    ":" ++ twoDigits (second / 60 % 60) ++ ":" ++ twoDigits (second % 60) ++ " GMT"

end HttpApp.Wire

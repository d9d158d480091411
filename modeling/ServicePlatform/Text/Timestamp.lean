import ServicePlatform.Text.Hex

/-! Date-times as text: numerals of a fixed width, the days of the calendar, and
the profile `YYYY-MM-DDThh:mm:ss` with an optional fraction and a zone. -/
namespace Text

/-- The numeral of the last digits of a number, as many as the width. -/
def decimal : Nat → Nat → List Char
  | 0, _ => []
  | width + 1, n => decimal width (n / 10) ++ [Nat.digitChar (n % 10)]

def IsLeapYear (year : Nat) : Prop := year % 4 = 0 ∧ (year % 100 ≠ 0 ∨ year % 400 = 0)

instance : DecidablePred IsLeapYear := fun year =>
  inferInstanceAs (Decidable (year % 4 = 0 ∧ (year % 100 ≠ 0 ∨ year % 400 = 0)))

/-- The number of days of a month. -/
def daysIn (year month : Nat) : Nat :=
  if month = 2 then if IsLeapYear year then 29 else 28
  else if month = 4 ∨ month = 6 ∨ month = 9 ∨ month = 11 then 30
  else 31

/-- A date of the calendar with four digits for its year. -/
structure CalendarDate where
  year : Nat
  month : Nat
  day : Nat
  year_lt : year < 10000
  month_range : 1 ≤ month ∧ month ≤ 12
  day_range : 1 ≤ day ∧ day ≤ daysIn year month

def CalendarDate.text (date : CalendarDate) : List Char :=
  decimal 4 date.year ++ '-' :: (decimal 2 date.month ++ '-' :: decimal 2 date.day)

structure ClockTime where
  hour : Nat
  minute : Nat
  second : Nat
  hour_lt : hour < 24
  minute_lt : minute < 60
  second_lt : second < 60

def ClockTime.text (time : ClockTime) : List Char :=
  decimal 2 time.hour ++ ':' :: (decimal 2 time.minute ++ ':' :: decimal 2 time.second)

end Text

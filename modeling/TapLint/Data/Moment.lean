/-
Dates and times of day.

A date is a day of the Gregorian calendar in the years 1 to 9999; a moment is a
date with a time of day and, if it is known, how far local time is ahead.  Both
can only be made from numbers that fit, and `MomentError` names the first that
does not.

* `Moment.iso` — the form of the standard, `2024-01-02T03:04:05`.
-/

namespace TapLint

/-- A day. -/
structure Date where
  year : Nat
  month : Nat
  day : Nat
  deriving Repr, DecidableEq, Inhabited

/-- A day with a time of day; `offset` is in minutes. -/
structure Moment where
  date : Date
  hour : Nat
  minute : Nat
  second : Nat
  microsecond : Nat
  offset : Option Int
  deriving Repr, DecidableEq, Inhabited

/-- Which number does not fit into a date or a time. -/
inductive MomentError where
  | year (n : Int)
  | month
  | day
  | hour
  | minute
  | second
  | microsecond
  /-- An offset of a day or more. -/
  | offset (minutes : Int)
  deriving Repr, DecidableEq

namespace MomentError

/-- A span of time as days and the seconds beyond them. -/
def span (seconds : Int) : String :=
  let days := seconds.fdiv 86400
  let rest := seconds.fmod 86400
  let parts := (if days = 0 then [] else ["days=" ++ toString days])
    ++ (if rest = 0 then [] else ["seconds=" ++ toString rest])
  "datetime.timedelta(" ++ (if parts.isEmpty then "0" else String.intercalate ", " parts) ++ ")"

/-- The wording of an error. -/
def message : MomentError → String
  | year n => "year " ++ toString n ++ " is out of range"
  | month => "month must be in 1..12"
  | day => "day is out of range for month"
  | hour => "hour must be in 0..23"
  | minute => "minute must be in 0..59"
  | second => "second must be in 0..59"
  | microsecond => "microsecond must be in 0..999999"
  | offset minutes =>
    "offset must be a timedelta strictly between -timedelta(hours=24) and " ++
      "timedelta(hours=24), not " ++ span (minutes * 60)

end MomentError

/-- A number with at least `width` digits. -/
def padded (width n : Nat) : String :=
  let ds := Nat.toDigits 10 n
  String.ofList (List.replicate (width - ds.length) '0' ++ ds)

namespace Date

/-- Whether a year has a day more. -/
def isLeap (year : Nat) : Bool :=
  year % 4 == 0 && (year % 100 != 0 || year % 400 == 0)

/-- How many days a month has. -/
def daysIn (year month : Nat) : Nat :=
  if month = 2 then (if isLeap year then 29 else 28)
  else if month = 4 ∨ month = 6 ∨ month = 9 ∨ month = 11 then 30 else 31

/-- A day, if there is one of these numbers. -/
def make (year month day : Int) : Except MomentError Date :=
  if year < 1 ∨ 9999 < year then .error (.year year)
  else if month < 1 ∨ 12 < month then .error .month
  else if day < 1 ∨ daysIn year.toNat month.toNat < day then .error .day
  else .ok ⟨year.toNat, month.toNat, day.toNat⟩

/-- The form of the standard. -/
def iso (d : Date) : String :=
  padded 4 d.year ++ "-" ++ padded 2 d.month ++ "-" ++ padded 2 d.day

end Date

namespace Moment

/-- A moment, if there is one of these numbers. -/
def make (year month day hour minute second microsecond : Int) (offset : Option Int) :
    Except MomentError Moment := do
  match offset with
  | some m => if m ≤ -1440 ∨ 1440 ≤ m then throw (.offset m)
  | none => pure ()
  let date ← Date.make year month day
  if hour < 0 ∨ 23 < hour then throw .hour
  if minute < 0 ∨ 59 < minute then throw .minute
  if second < 0 ∨ 59 < second then throw .second
  if microsecond < 0 ∨ 999999 < microsecond then throw .microsecond
  pure ⟨date, hour.toNat, minute.toNat, second.toNat, microsecond.toNat, offset⟩

/-- How far local time is ahead, in hours and minutes. -/
def shownOffset (minutes : Int) : String :=
  (if minutes < 0 then "-" else "+") ++ padded 2 (minutes.natAbs / 60) ++ ":" ++
    padded 2 (minutes.natAbs % 60)

/-- The date and the time of day, with something between them.  Microseconds are
only shown if there are any. -/
def shownWith (separator : String) (m : Moment) : String :=
  m.date.iso ++ separator ++ padded 2 m.hour ++ ":" ++ padded 2 m.minute ++ ":" ++
    padded 2 m.second ++
    (if m.microsecond = 0 then "" else "." ++ padded 6 m.microsecond) ++
    (match m.offset with
      | some o => shownOffset o
      | none => "")

/-- The form of the standard. -/
def iso (m : Moment) : String := m.shownWith "T"

end Moment

end TapLint

import Calculator.Number.Reader
import Calculator.Yaml.Resolve

/-!
# Moments

Dates, and dates with a time of day, of the Gregorian calendar. A time of day may
have a distance from universal time; moments with one are the same if they are
the same instant. `Moment.written` gives the notation of messages.
-/

namespace Calculator.Yaml

/-- A time of day, to the microsecond. -/
structure Clock where
  hour : Nat
  minute : Nat
  second : Nat
  microsecond : Nat
  /-- The seconds that it is ahead of universal time, where that is known. -/
  offset : Option Int
deriving DecidableEq, Repr

/-- A date, or a date with a time of day. -/
structure Moment where
  year : Nat
  month : Nat
  day : Nat
  clock : Option Clock
deriving DecidableEq, Repr

/-! ## The calendar -/

/-- A leap year of the Gregorian calendar. -/
def isLeapYear (y : Nat) : Bool := y % 4 = 0 && (y % 100 ≠ 0 || y % 400 = 0)

/-- The number of days of a month. -/
def daysIn (y m : Nat) : Nat :=
  if m = 2 then (if isLeapYear y then 29 else 28) else if m ∈ [4, 6, 9, 11] then 30 else 31

/-- The number of days before a year. -/
def daysBeforeYear (y : Nat) : Nat :=
  let past := y - 1
  past * 365 + past / 4 - past / 100 + past / 400

/-- The number of days of a year before a month. -/
def daysBeforeMonth (y m : Nat) : Nat :=
  (List.range (m - 1)).foldl (fun days k => days + daysIn y (k + 1)) 0

namespace Moment

/-- The complaint about a date that is not in the calendar. -/
def dateComplaint? (y m d : Nat) : Option String :=
  if y = 0 ∨ 9999 < y then some s!"year {y} is out of range"
  else if m < 1 ∨ 12 < m then some "month must be in 1..12"
  else if d < 1 ∨ daysIn y m < d then some "day is out of range for month"
  else none

/-- The complaint about a time that is not on the clock. -/
def clockComplaint? (c : Clock) : Option String :=
  if 23 < c.hour then some "hour must be in 0..23"
  else if 59 < c.minute then some "minute must be in 0..59"
  else if 59 < c.second then some "second must be in 0..59"
  else if 999999 < c.microsecond then some "microsecond must be in 0..999999"
  else none

/-- The complaint about a moment that is none. -/
def complaint? (m : Moment) : Option String :=
  dateComplaint? m.year m.month m.day <|> m.clock.bind clockComplaint?

/-! ## Notation -/

/-- The seconds of a day. -/
def daySeconds : Int := 86400

/-- A span of time, as whole days and the seconds beyond them. -/
def spanNotation (seconds : Int) : String :=
  let days := seconds / daySeconds
  let rest := seconds % daySeconds
  let parts :=
    (if days = 0 then [] else [s!"days={days}"]) ++ (if rest = 0 then [] else [s!"seconds={rest}"])
  "datetime.timedelta(" ++ (if parts = [] then "0" else ", ".intercalate parts) ++ ")"

/-- A zone by its distance from universal time. -/
def zoneNotation (offset : Int) : String :=
  if offset = 0 then "datetime.timezone.utc"
  else s!"datetime.timezone({spanNotation offset})"

/-- A moment in the notation of messages. Seconds and microseconds are left out where
they are zero. -/
def written (m : Moment) : String :=
  match m.clock with
  | none => s!"datetime.date({m.year}, {m.month}, {m.day})"
  | some c =>
    let seconds :=
      if c.microsecond ≠ 0 then s!", {c.second}, {c.microsecond}"
      else if c.second ≠ 0 then s!", {c.second}"
      else ""
    let zone := match c.offset with
      | some offset => ", tzinfo=" ++ zoneNotation offset
      | none => ""
    s!"datetime.datetime({m.year}, {m.month}, {m.day}, {c.hour}, {c.minute}{seconds}{zone})"

/-- The kind of a moment as messages name it. -/
def typeName (m : Moment) : String :=
  if m.clock.isSome then "datetime.datetime" else "datetime.date"

/-! ## Order -/

/-- The microseconds from the start of the calendar to a moment, of universal time
where its distance from it is known. -/
def instant (m : Moment) : Int :=
  let days : Int := daysBeforeYear m.year + daysBeforeMonth m.year m.month + m.day
  match m.clock with
  | none => days * daySeconds * 1000000
  | some c =>
    let seconds : Int := c.hour * 3600 + c.minute * 60 + c.second
    (days * daySeconds + seconds - c.offset.getD 0) * 1000000 + c.microsecond

/-- Why two moments cannot be put in order. -/
def unordered? (a b : Moment) : Option String :=
  match a.clock, b.clock with
  | some c, some d =>
    if c.offset.isSome = d.offset.isSome then none
    else some "can't compare offset-naive and offset-aware datetimes"
  | none, none => none
  | _, _ => some "can't compare datetime.datetime to datetime.date"

/-- Whether two moments are the same. -/
def same (a b : Moment) : Bool := (unordered? a b).isNone && a.instant = b.instant

end Moment

/-! ## Reading -/

/-- The microseconds of a fraction of a second. -/
def microseconds (fraction : List Char) : Nat :=
  let ds := fraction.take 6
  natOfDigits (ds ++ List.replicate (6 - ds.length) '0')

/-- The distance of a zone from universal time, which must be less than a day. -/
def zoneOffset (sign : Char) (hours minutes : List Char) : Except Failure Int :=
  let size : Int := 3600 * natOfDigits hours + 60 * natOfDigits minutes
  let offset := if sign = '-' then -size else size
  if size < Moment.daySeconds then .ok offset
  else
    .error (.malformedScalar ("offset must be a timedelta strictly between "
      ++ "-timedelta(hours=24) and timedelta(hours=24), not "
      ++ Moment.spanNotation offset ++ "."))

/-- The distance from universal time that a text gives, if it gives one. -/
def MomentText.offset (t : MomentText) : Except Failure (Option Int) :=
  match t.zone with
  | none => .ok none
  | some none => .ok (some 0)
  | some (some (sign, hours, minutes)) => some <$> zoneOffset sign hours minutes

/-- The moment that a text gives. Its zone is looked at first. -/
def MomentText.moment (t : MomentText) : Except Failure Moment := do
  let n := natOfDigits
  let offset ← t.offset
  let clock := t.time.map fun (hour, minute, second, fraction) =>
    Clock.mk (n hour) (n minute) (n second) (microseconds fraction) offset
  let m : Moment := ⟨n t.year, n t.month, n t.day, clock⟩
  match m.complaint? with
  | some complaint => throw (.malformedScalar complaint)
  | none => pure m

end Calculator.Yaml

import TenantSql.Text.Blank
import TenantSql.Number.Standard

/-!
# Dates and moments

The calendar values that a definition may hold in place of a text.
-/

namespace TenantSql

structure Date where
  year : Nat
  month : Nat
  day : Nat
  deriving DecidableEq, Repr

structure Moment where
  date : Date
  hour : Nat
  minute : Nat
  second : Nat
  microsecond : Nat
  offset : Option Int
  deriving DecidableEq, Repr

namespace Date

def isLeapYear (year : Nat) : Bool :=
  year % 4 == 0 && (year % 100 != 0 || year % 400 == 0)

def daysIn (year month : Nat) : Nat :=
  if month == 2 then if isLeapYear year then 29 else 28
  else if [4, 6, 9, 11].contains month then 30
  else 31

def dayNumber (d : Date) : Nat :=
  let years := d.year - 1
  365 * years + years / 4 - years / 100 + years / 400 +
    ((List.range d.month).drop 1 |>.map (daysIn d.year)).sum + d.day

def isValid (d : Date) : Bool :=
  1 ≤ d.year && d.year ≤ 9999 && 1 ≤ d.month && d.month ≤ 12 &&
    1 ≤ d.day && d.day ≤ daysIn d.year d.month

def twoDigits (width n : Nat) : String :=
  Text.padLeft width '0' (toString n)

def display (d : Date) : String :=
  "-".intercalate [twoDigits 4 d.year, twoDigits 2 d.month, twoDigits 2 d.day]

def arguments (d : Date) : List String :=
  [toString d.year, toString d.month, toString d.day]

def quoted (d : Date) : String :=
  "datetime.date(" ++ ", ".intercalate d.arguments ++ ")"

end Date

namespace Moment

def isValid (m : Moment) : Bool :=
  m.date.isValid && m.hour < 24 && m.minute < 60 && m.second < 60 && m.microsecond < 1000000 &&
    m.offset.all fun minutes => minutes.natAbs < 1440

def clockTime (m : Moment) : Int :=
  (((m.date.dayNumber * 24 + m.hour) * 60 + m.minute) * 60 + m.second) * 1000000 + m.microsecond

def instant? (m : Moment) : Option Int :=
  m.offset.map fun minutes => m.clockTime - minutes * 60000000

/-- The first of two moments comes first. A moment whose distance from universal time is known has
no order with one whose distance is not. -/
def below? (a b : Moment) : Option Bool :=
  match a.instant?, b.instant? with
  | some s, some t => some (s < t)
  | none, none => some (a.clockTime < b.clockTime)
  | _, _ => none

def same (a b : Moment) : Bool :=
  a.below? b == some false && b.below? a == some false

def displayOffset (minutes : Int) : String :=
  (if minutes < 0 then "-" else "+") ++ Date.twoDigits 2 (minutes.natAbs / 60) ++ ":" ++
    Date.twoDigits 2 (minutes.natAbs % 60)

def display (m : Moment) : String :=
  m.date.display ++ " " ++
    ":".intercalate ([m.hour, m.minute, m.second].map (Date.twoDigits 2)) ++
    (if m.microsecond == 0 then "" else "." ++ Date.twoDigits 6 m.microsecond) ++
    (m.offset.map displayOffset).getD ""

def quotedDuration (minutes : Int) : String :=
  let seconds := minutes * 60
  let days := seconds.fdiv 86400
  let rest := seconds.fmod 86400
  let parts := (if days == 0 then [] else ["days=" ++ toString days]) ++
    (if rest == 0 then [] else ["seconds=" ++ toString rest])
  "datetime.timedelta(" ++ (if parts.isEmpty then "0" else ", ".intercalate parts) ++ ")"

def quoted (m : Moment) : String :=
  let seconds :=
    if m.microsecond != 0 then [toString m.second, toString m.microsecond]
    else if m.second != 0 then [toString m.second]
    else []
  let zone := match m.offset with
    | none => []
    | some 0 => ["tzinfo=datetime.timezone.utc"]
    | some minutes => ["tzinfo=datetime.timezone(" ++ quotedDuration minutes ++ ")"]
  "datetime.datetime(" ++ ", ".intercalate
    (m.date.arguments ++ [toString m.hour, toString m.minute] ++ seconds ++ zone) ++ ")"

end Moment

end TenantSql

/-!
# Days and moments

A day is a date of the calendar that repeats every four hundred years; a moment is a time of a
day, to the millionth of a second. Either can be written down without existing, and then has a
fault. Years run from 1 to 9999, so a moment that is moved can leave the calendar.
-/

set_option autoImplicit false

namespace Stencil

structure Day where
  year : Nat
  month : Nat
  day : Nat
deriving DecidableEq

namespace Day

def isLeapYear (year : Nat) : Bool := year % 4 == 0 && (year % 100 != 0 || year % 400 == 0)

def daysInMonth (year month : Nat) : Nat :=
  if month = 2 then if isLeapYear year then 29 else 28
  else if month = 4 ∨ month = 6 ∨ month = 9 ∨ month = 11 then 30
  else 31

/-- Why the calendar does not have a day. The year is looked at first and the day of the month last,
with a message for each. -/
def fault? (d : Day) : Option String :=
  if d.year = 0 then some "year 0 is out of range"
  else if d.month = 0 ∨ 12 < d.month then some "month must be in 1..12"
  else if d.day = 0 ∨ daysInMonth d.year d.month < d.day then
    some "day is out of range for month"
  else none

/-- The day after. Years have four digits, so the calendar ends at both sides and the last day has
none. -/
def next? (d : Day) : Option Day :=
  if d.day < daysInMonth d.year d.month then some { d with day := d.day + 1 }
  else if d.month < 12 then some ⟨d.year, d.month + 1, 1⟩
  else if d.year < 9999 then some ⟨d.year + 1, 1, 1⟩
  else none

def previous? (d : Day) : Option Day :=
  if 1 < d.day then some { d with day := d.day - 1 }
  else if 1 < d.month then some ⟨d.year, d.month - 1, daysInMonth d.year (d.month - 1)⟩
  else if 1 < d.year then some ⟨d.year - 1, 12, 31⟩
  else none

def later? : Nat → Day → Option Day
  | 0, d => some d
  | n + 1, d => d.next?.bind (later? n)

def earlier? : Nat → Day → Option Day
  | 0, d => some d
  | n + 1, d => d.previous?.bind (earlier? n)

/-- A number that orders days. Months and days leave gaps in it, which an order does not mind. -/
def rank (d : Day) : Nat := (d.year * 13 + d.month) * 32 + d.day

end Day

structure Moment where
  day : Day
  hour : Nat
  minute : Nat
  second : Nat
  /-- Millionths of a second. -/
  micro : Nat
deriving DecidableEq

namespace Moment

/-- Why there is no such moment: the day is looked at before the time. The text is that of the
report. -/
def fault? (m : Moment) : Option String :=
  m.day.fault? <|>
    if 23 < m.hour then some "hour must be in 0..23"
    else if 59 < m.minute then some "minute must be in 0..59"
    else if 59 < m.second then some "second must be in 0..59"
    else none

def seconds (m : Moment) : Nat := (m.hour * 60 + m.minute) * 60 + m.second

/-- The moment so many seconds later, or earlier if they are negative. This takes a moment with an
offset to the one without that is the same instant. -/
def move? (m : Moment) (shift : Int) : Option Moment := do
  let total := (m.seconds : Int) + shift
  let days := Int.fdiv total 86400
  let rest := (Int.fmod total 86400).toNat
  let day ← if days < 0 then m.day.earlier? days.natAbs else m.day.later? days.toNat
  some ⟨day, rest / 3600, rest / 60 % 60, rest % 60, m.micro⟩

def rank (m : Moment) : Nat := (m.day.rank * 86400 + m.seconds) * 1000000 + m.micro

end Moment

end Stencil

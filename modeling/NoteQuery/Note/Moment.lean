import NoteQuery.Decimal.Notation
import NoteQuery.Text.Numeral

/-!
# Moments

A moment is a date and a time of day, with or without its distance from universal time.
-/

set_option autoImplicit false

namespace NoteQuery

/-- A day of the calendar. -/
structure Date where
  year : Nat
  month : Nat
  day : Nat
  deriving DecidableEq, Repr

namespace Date

def isLeap (year : Nat) : Bool :=
  year % 4 == 0 && (year % 100 != 0 || year % 400 == 0)

def daysIn (year month : Nat) : Nat :=
  if month == 2 then (if isLeap year then 29 else 28)
  else if month == 4 || month == 6 || month == 9 || month == 11 then 30
  else 31

/-- Whether the calendar has the day. -/
def isValid (d : Date) : Bool :=
  1 ≤ d.year && 1 ≤ d.month && d.month ≤ 12 && 1 ≤ d.day && d.day ≤ daysIn d.year d.month

/-- The day that lies a number of days after 1 March of the year 0, with the year counted from
March to February: 400 years have 146097 days, a century 36524 and four years 1461, save the
shorter ones at their ends. -/
def ofMarchDays (n : Nat) : Date :=
  let era := n / 146097
  let inEra := n % 146097
  let yearOfEra := (inEra - inEra / 1460 + inEra / 36524 - inEra / 146096) / 365
  let dayOfYear := inEra - (365 * yearOfEra + yearOfEra / 4 - yearOfEra / 100)
  let marchMonth := (5 * dayOfYear + 2) / 153
  let day := dayOfYear - (153 * marchMonth + 2) / 5 + 1
  let month := if marchMonth < 10 then marchMonth + 3 else marchMonth - 9
  let year := yearOfEra + era * 400 + (if month ≤ 2 then 1 else 0)
  ⟨year, month, day⟩

/-- The text of a day: year, month and day with dashes. -/
def render (d : Date) : Text :=
  Text.ofNatPadded 4 d.year ++ '-' :: Text.ofNatPadded 2 d.month ++
    '-' :: Text.ofNatPadded 2 d.day

end Date

/-- A date and a time of day. -/
structure Moment where
  date : Date
  hour : Nat
  minute : Nat
  second : Nat
  micro : Nat
  /-- The seconds that the local time is ahead of universal time, where that is known. -/
  offset : Option Int
  deriving DecidableEq, Repr

namespace Moment

/-- The moment that lies some microseconds after the start of 1970, in universal time. -/
def ofMicros (micros : Int) : Moment :=
  let seconds := micros / 1000000
  let days := seconds / 86400
  let inDay := (seconds % 86400).toNat
  ⟨Date.ofMarchDays (days + 719468).toNat, inDay / 3600, inDay / 60 % 60, inDay % 60,
    (micros % 1000000).toNat, some 0⟩

/-- The microseconds in a floating point number of seconds. The whole seconds are split off first;
the rest is rounded, a half to the even neighbour. -/
def microsOfSeconds (seconds : Float) : Int :=
  let whole := if seconds < 0.0 then seconds.ceil else seconds.floor
  let integer (negative : Bool) (m : Nat) (q : Int) : Int :=
    let n : Int := Decimal.roundDiv (m * Nat.pow 2 q.toNat) (Nat.pow 2 (-q).toNat)
    if negative then -n else n
  let rounded (x : Float) : Int :=
    match Decimal.Parts.ofFloat x with
    | .finite negative m q _ => integer negative m q
    | _ => 0
  rounded whole * 1000000 + rounded ((seconds - whole) * 1e6)

def renderOffset (offset : Int) : Text :=
  let n := offset.natAbs
  (if offset < 0 then '-' else '+') :: Text.ofNatPadded 2 (n / 3600) ++
    ':' :: Text.ofNatPadded 2 (n / 60 % 60)

/-- The text of a moment; microseconds are left out when they are zero. -/
def render (m : Moment) : Text :=
  m.date.render ++ 'T' :: Text.ofNatPadded 2 m.hour ++ ':' :: Text.ofNatPadded 2 m.minute ++
    ':' :: Text.ofNatPadded 2 m.second ++
    (if m.micro = 0 then [] else '.' :: Text.ofNatPadded 6 m.micro) ++
    (match m.offset with
      | some o => renderOffset o
      | none => [])

end Moment

end NoteQuery

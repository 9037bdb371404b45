import NoteQuery.Intake.Scalar
import NoteQuery.Note.Moment

/-!
# Reading moments

A moment comes as a text, `2024-03-01T10:00:00.5+02:00` or with parts left out, or as a number of
seconds since 1970. A number beyond `watershed` counts milliseconds. The years 1600 to 9999 can be
told by a number.
-/

set_option autoImplicit false

namespace NoteQuery.Intake

/-- The number of a fixed count of digits at the front of a text, and what follows. -/
def digitsOf (count : Nat) (t : Text) : Option (Nat × Text) :=
  let front := t.take count
  if front.length = count && front.all Char.isDigit then
    (Text.digits? front).map (·, t.drop count)
  else none

def after (c : Char) : Text → Option Text
  | d :: rest => if c = d then some rest else none
  | [] => none

def readDate? (t : Text) : Option (Date × Text) := do
  let (year, t) ← digitsOf 4 t
  let t ← after '-' t
  let (month, t) ← digitsOf 2 t
  let t ← after '-' t
  let (day, t) ← digitsOf 2 t
  let d : Date := ⟨year, month, day⟩
  if d.isValid then some (d, t) else none

/-- The fraction of a second at the front of a text, in millionths; further digits are cut. -/
def readFraction? (t : Text) : Option (Nat × Text) :=
  match t with
  | c :: rest =>
    if c = '.' || c = ',' then
      let digits := rest.takeWhile Char.isDigit
      if digits.isEmpty then none
      else (Text.digits? (Text.padRight '0' 6 (digits.take 6))).map
        (·, rest.dropWhile Char.isDigit)
    else some (0, t)
  | [] => some (0, [])

/-- The distance from universal time that is the rest of a text. -/
def readOffset? (t : Text) : Option (Option Int) :=
  match t with
  | [] => some none
  | c :: rest =>
    if c = 'Z' || c = 'z' then if rest.isEmpty then some (some 0) else none
    else do
      let sign : Int ←
        if c = '+' then some 1
        else if c = '-' || c.toNat = 0x2212 then some (-1)
        else none
      let (hours, rest) ← digitsOf 2 rest
      let (minutes, rest) ← digitsOf 2 ((after ':' rest).getD rest)
      let seconds := hours * 3600 + minutes * 60
      if rest.isEmpty && minutes < 60 && seconds < 86400 then some (some (sign * seconds))
      else none

def readMoment? (t : Text) : Option Moment := do
  let (date, t) ← readDate? t
  let t ← match t with
    | c :: rest => if c = 'T' || c = 't' || c = ' ' || c = '_' then some rest else none
    | [] => none
  let (hour, t) ← digitsOf 2 t
  let t ← after ':' t
  let (minute, t) ← digitsOf 2 t
  let (second, micro, t) ← match t with
    | ':' :: rest => do
      let (second, rest) ← digitsOf 2 rest
      let (micro, rest) ← readFraction? rest
      some (second, micro, rest)
    | _ => some (0, 0, t)
  let offset ← readOffset? t
  if hour < 24 && minute < 60 && second < 60 then
    some ⟨date, hour, minute, second, micro, offset⟩
  else none

/-- The number of seconds beyond which a number counts milliseconds. -/
def watershed : Int := 20000000000

/-- The moment that lies some seconds, or milliseconds, and some microseconds after the start of
1970. -/
def momentOfNumber? (n : Int) (micros : Int) : Option Moment :=
  let total := (if watershed < n.natAbs then n * 1000 else n * 1000000) + micros
  let seconds := total / 1000000
  if seconds < -11676096000 || 253402300799 < seconds then none
  else some (Moment.ofMicros total)

/-- The moment that lies a floating point number of seconds after the start of 1970; the fraction
is rounded to microseconds and counts forward from the whole second before it. -/
def momentOfFloat? (x : Float) : Option Moment := do
  let (n, d) ← Datum.fraction? x
  let micros := Decimal.roundDiv (n.natAbs % d * 1000000) d
  momentOfNumber? (n / d) micros

/-- The number at the whole of a text: digits after a sign, perhaps with a fraction. -/
def readSeconds? (t : Text) : Option Moment :=
  let (negative, digits) :=
    match t with
    | '-' :: r => (true, r)
    | '+' :: r => (false, r)
    | r => (false, r)
  let whole := digits.takeWhile Char.isDigit
  let rest := digits.dropWhile Char.isDigit
  if whole.isEmpty then none
  else
    match rest with
    | [] => do
      let n : Int := (Text.digits? whole).getD 0
      if n < Nat.pow 2 63 then momentOfNumber? (if negative then -n else n) 0 else none
    | '.' :: places =>
      if places.all Char.isDigit then
        let mantissa := (Text.digits? (whole ++ places)).getD 0
        match Json.decimal? mantissa (-places.length) with
        | some x => momentOfFloat? (if negative then -x else x)
        | none => none
      else none
    | _ => none

/-- The moment that a text tells. It may name a day alone, and means its start. -/
def momentOfText (t : Text) : Check Moment :=
  match readMoment? t <|> readSeconds? t with
  | some m => .accepted m
  | none =>
    match readDate? t with
    | some (d, []) => .accepted ⟨d, 0, 0, 0, 0, none⟩
    | _ => .flaw .unreadableDay

/-- A moment: a text, or a number of seconds. -/
def moment : Datum → Check Moment
  | .text t => momentOfText t
  | .bytes b => ofBytes momentOfText .unreadableDay b
  | .int i =>
    match momentOfNumber? i 0 with
    | some m => .accepted m
    | none => .flaw .unreadableMoment
  | .float x =>
    match momentOfFloat? x with
    | some m => .accepted m
    | none => .flaw .unreadableMoment
  | _ => .flaw .notMoment

end NoteQuery.Intake

/-!
# The shortest decimal that reads back

A positive binary number `m · 2 ^ q` stands for every real that rounds to it. `shortest` finds the
decimal `c · 10 ^ e` with the fewest digits in that interval: for one digit, then two, and so on,
it tries the two neighbours of the number on that decimal grid. The first grid with a hit wins; of
two hits the nearer one, of two equally near ones the even one.

All arithmetic is exact: the number and the ends of its interval are multiples of a common unit.
-/

set_option autoImplicit false

namespace NoteQuery.Decimal

/-- A positive binary number with the interval of the reals that round to it, all in multiples of
`1 / unit`. -/
structure Interval where
  value : Nat
  low : Nat
  high : Nat
  /-- The parts that make up one. -/
  unit : Nat
  /-- Whether the ends belong to the interval. -/
  closed : Bool

namespace Interval

/-- The interval of `m · 2 ^ q`; `narrow` says that the next lower number is only half as far away
as the next higher one. -/
def ofBinary (m : Nat) (q : Int) (narrow : Bool) : Interval :=
  let scale := Nat.pow 2 (q - 2).toNat
  { value := 4 * m * scale
    low := (4 * m - if narrow then 1 else 2) * scale
    high := (4 * m + 2) * scale
    unit := Nat.pow 2 (2 - q).toNat
    closed := m % 2 == 0 }

/-- Whether the interval holds `x` parts. -/
def holds (i : Interval) (x : Nat) : Bool :=
  if i.closed then i.low ≤ x && x ≤ i.high else i.low < x && x < i.high

/-- The same interval in parts that are `k` times smaller. -/
def refine (i : Interval) (k : Nat) : Interval :=
  { i with value := i.value * k, low := i.low * k, high := i.high * k }

/-- The power of ten at or below the number. -/
def magnitude (i : Interval) : Int :=
  if i.unit ≤ i.value then (Nat.toDigits 10 (i.value / i.unit)).length - 1
  else -(Nat.toDigits 10 (i.unit / i.value)).length

/-- The better neighbour of the number among the multiples of `step` parts, if one of the two lies
in the interval. -/
def neighbour? (i : Interval) (step : Nat) : Option Nat :=
  let below := i.value / step
  let above := below + 1
  match i.holds (below * step), i.holds (above * step) with
  | false, false => none
  | true, false => some below
  | false, true => some above
  | true, true =>
    let under := i.value - below * step
    let past := above * step - i.value
    if under < past || (under == past && below % 2 == 0) then some below else some above

/-- The best decimal of `digits` digits in the interval. The neighbour above may be the next power
of ten, which is one digit longer and ends in a zero. -/
def onGrid? (i : Interval) (digits : Nat) : Option (Nat × Int) :=
  let e := i.magnitude - digits + 1
  let fine := i.refine (Nat.pow 10 (-e).toNat)
  (fine.neighbour? (i.unit * Nat.pow 10 e.toNat)).map fun c =>
    if c == Nat.pow 10 digits then (c / 10, e + 1) else (c, e)

end Interval

/-- The shortest decimal `c · 10 ^ e` that reads back as `m · 2 ^ q`. -/
def shortest (m : Nat) (q : Int) (narrow : Bool) : Nat × Int :=
  let i := Interval.ofBinary m q narrow
  ((List.range 17).findSome? fun n => i.onGrid? (n + 1)).getD (0, 0)

end NoteQuery.Decimal

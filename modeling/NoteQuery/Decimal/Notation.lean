import NoteQuery.Decimal.Shortest
import NoteQuery.Text.Numeral

/-!
# Floating point numbers as text

A number is written with the fewest digits that read back. Where the leading digit stands for
`10 ^ -4` up to `10 ^ 15` the notation is positional and keeps a digit after the point; other
numbers have an exponent of at least two digits with its sign.
-/

set_option autoImplicit false

namespace NoteQuery.Decimal

/-- The pieces of a floating point number. -/
inductive Parts where
  | nan
  | infinite (negative : Bool)
  | zero (negative : Bool)
  /-- The number `m · 2 ^ q` with its sign; `narrow` marks the least mantissa of a power. -/
  | finite (negative : Bool) (m : Nat) (q : Int) (narrow : Bool)

/-- The pieces of a floating point number, read from its bits. -/
def Parts.ofFloat (x : Float) : Parts :=
  let bits : Nat := x.toBits.toNat
  let negative := bits / Nat.pow 2 63 == 1
  let exponent : Nat := bits / Nat.pow 2 52 % Nat.pow 2 11
  let fraction : Nat := bits % Nat.pow 2 52
  if exponent == 2047 then
    if fraction == 0 then .infinite negative else .nan
  else if exponent == 0 then
    if fraction == 0 then .zero negative else .finite negative fraction (-1074) false
  else
    .finite negative (Nat.pow 2 52 + fraction) ((exponent : Int) - 1075)
      (fraction == 0 && exponent != 1)

/-- Where notation changes, and how an exponent is written. -/
structure Style where
  /-- The least power of ten that is written positionally. -/
  least : Int
  /-- The first power of ten that is not. -/
  bound : Int
  exponentDigits : Nat

/-- Numbers are positional from `0.0001` up to `10 ^ 16`; an exponent has two digits or more. -/
def standard : Style := ⟨-4, 16, 2⟩

/-- The text of `c · 10 ^ e`, for a `c` that is not zero. -/
def Style.render (style : Style) (c : Nat) (e : Int) : Text :=
  let digits := Text.ofNat c
  let count : Int := digits.length
  let leading := count + e - 1
  if leading < style.least || style.bound ≤ leading then
    let fraction := if digits.length == 1 then [] else '.' :: digits.drop 1
    let sign := if leading < 0 then '-' else '+'
    digits.take 1 ++ fraction ++ 'e' :: sign ::
      Text.ofNatPadded style.exponentDigits leading.natAbs
  else if leading < 0 then
    "0.".toList ++ List.replicate (-leading - 1).toNat '0' ++ digits
  else if count ≤ leading + 1 then
    digits ++ List.replicate (leading + 1 - count).toNat '0' ++ ".0".toList
  else
    digits.take (leading + 1).toNat ++ '.' :: digits.drop (leading + 1).toNat

def ofFloat (x : Float) : Text :=
  let signed (negative : Bool) (t : Text) : Text := if negative then '-' :: t else t
  match Parts.ofFloat x with
  | .nan => "nan".toList
  | .infinite negative => signed negative "inf".toList
  | .zero negative => signed negative "0.0".toList
  | .finite negative m q narrow =>
    let (c, e) := shortest m q narrow
    signed negative (standard.render c e)

/-- The rounded quotient of two numbers; a half goes to the even neighbour. -/
def roundDiv (num den : Nat) : Nat :=
  let below := num / den
  let twice := 2 * (num % den)
  if twice < den || (twice == den && below % 2 == 0) then below else below + 1

/-- The text of a floating point number with a fixed count of places after the point. -/
def fixed (places : Nat) (x : Float) : Text :=
  let write (negative : Bool) (scaled : Nat) : Text :=
    let whole := Text.ofNat (scaled / Nat.pow 10 places)
    let fraction :=
      if places == 0 then [] else '.' :: Text.ofNatPadded places (scaled % Nat.pow 10 places)
    (if negative then ['-'] else []) ++ whole ++ fraction
  match Parts.ofFloat x with
  | .nan => "nan".toList
  | .infinite negative => (if negative then ['-'] else []) ++ "inf".toList
  | .zero negative => write negative 0
  | .finite negative m q _ =>
    write negative (roundDiv (m * Nat.pow 2 q.toNat * Nat.pow 10 places) (Nat.pow 2 (-q).toNat))

end NoteQuery.Decimal

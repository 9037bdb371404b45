import NoteQuery.Text.Basic

/-!
# Numerals

The decimal text of a natural number and of an integer, with leading zeros where a fixed width is
asked for, and the hexadecimal text that escapes use.
-/

set_option autoImplicit false

namespace NoteQuery.Text

def ofNat (n : Nat) : Text :=
  Nat.toDigits 10 n

def ofInt (i : Int) : Text :=
  if i < 0 then '-' :: ofNat i.natAbs else ofNat i.natAbs

/-- A text with `fill` in front of it up to `width` characters. -/
def padLeft (fill : Char) (width : Nat) (t : Text) : Text :=
  List.replicate (width - t.length) fill ++ t

/-- A text with `fill` after it up to `width` characters. -/
def padRight (fill : Char) (width : Nat) (t : Text) : Text :=
  t ++ List.replicate (width - t.length) fill

/-- The decimal text of a number with leading zeros up to `width` digits. -/
def ofNatPadded (width n : Nat) : Text :=
  padLeft '0' width (ofNat n)

/-- The hexadecimal text of a number with leading zeros up to `width` digits. -/
def hex (width n : Nat) : Text :=
  padLeft '0' width (Nat.toDigits 16 n)

/-- The value of ASCII decimal digits, or nothing if another character is among them. -/
def digits? (t : Text) : Option Nat :=
  t.foldl (fun acc c => acc.bind fun n =>
    if c.isDigit then some (10 * n + (c.toNat - '0'.toNat)) else none) (some 0)

end NoteQuery.Text

import NoteQuery.Json.Basic
import NoteQuery.Text.Numeral

/-!
# Reading JSON

`Json.read?` accepts exactly one value with white space around it. The rules are the strict ones:
no comments, no trailing commas, no leading zeros, no bare control characters in strings, no half
of a surrogate pair, no number beyond the range of floating point, and at most `maxDepth` brackets
around any value. A number with a fraction or an exponent is a floating point number, and so is a
whole one that does not fit into 64 bits. When an object repeats a name, the last value counts.

Every function gives what it read together with the text after it. The functions recurse on fuel.
Each call consumes a character before it calls another, so the length of the input is fuel enough.
-/

set_option autoImplicit false

namespace NoteQuery.Json

/-- How deep brackets may nest. -/
def maxDepth : Nat := 1024

def skipSpace (t : Text) : Text :=
  t.dropWhile fun c => c == ' ' || c == '\t' || c == '\n' || c == '\r'

def skipWord? (word t : Text) : Option Text :=
  if word.isPrefixOf t then some (t.drop word.length) else none

def hexValue? (c : Char) : Option Nat :=
  let n := c.toNat
  if c.isDigit then some (n - 0x30)
  else if 'a' ≤ c && c ≤ 'f' then some (n - 0x61 + 10)
  else if 'A' ≤ c && c ≤ 'F' then some (n - 0x41 + 10)
  else none

/-- Four hexadecimal digits. -/
def unit? : Text → Option (Nat × Text)
  | a :: b :: c :: d :: rest => do
    let a ← hexValue? a
    let b ← hexValue? b
    let c ← hexValue? c
    let d ← hexValue? d
    return (((a * 16 + b) * 16 + c) * 16 + d, rest)
  | _ => none

/-- The character of an escape that begins with `u`: one unit, or the two of a surrogate pair. -/
def unicode? (t : Text) : Option (Char × Text) := do
  let (high, rest) ← unit? t
  if 0xd800 ≤ high && high < 0xdc00 then
    match rest with
    | '\\' :: 'u' :: rest =>
      let (low, rest) ← unit? rest
      if 0xdc00 ≤ low && low < 0xe000 then
        return (Char.ofNat (0x10000 + (high - 0xd800) * 0x400 + (low - 0xdc00)), rest)
      else none
    | _ => none
  else if 0xdc00 ≤ high && high < 0xe000 then none
  else return (Char.ofNat high, rest)

def escape? : Text → Option (Char × Text)
  | '"' :: rest => some ('"', rest)
  | '\\' :: rest => some ('\\', rest)
  | '/' :: rest => some ('/', rest)
  | 'b' :: rest => some (Char.ofNat 8, rest)
  | 'f' :: rest => some (Char.ofNat 12, rest)
  | 'n' :: rest => some ('\n', rest)
  | 'r' :: rest => some ('\r', rest)
  | 't' :: rest => some ('\t', rest)
  | 'u' :: rest => unicode? rest
  | _ => none

/-- The rest of a string after its opening quote; `acc` holds what was read, last first. -/
def stringTail? : Nat → Text → Text → Option (Text × Text)
  | 0, _, _ => none
  | fuel + 1, acc, t =>
    match t with
    | [] => none
    | '"' :: rest => some (acc.reverse, rest)
    | '\\' :: rest => do
      let (c, rest) ← escape? rest
      stringTail? fuel (c :: acc) rest
    | c :: rest => if c.toNat < 0x20 then none else stringTail? fuel (c :: acc) rest

/-- The floating point number nearest to `mantissa · 10 ^ exponent`, if there is a finite one. -/
def decimal? (mantissa : Nat) (exponent : Int) : Option Float :=
  let magnitude : Int := (Nat.toDigits 10 mantissa).length + exponent
  if mantissa == 0 || magnitude < -330 then some 0.0
  else if 310 < magnitude then none
  else
    let x := Float.ofScientific mantissa (exponent < 0) exponent.natAbs
    if x.isFinite then some x else none

def exponent? (t : Text) : Option (Option Int × Text) :=
  match t with
  | e :: rest =>
    if e == 'e' || e == 'E' then
      let (negative, rest) :=
        match rest with
        | '-' :: r => (true, r)
        | '+' :: r => (false, r)
        | r => (false, r)
      let digits := rest.takeWhile Char.isDigit
      if digits.isEmpty then none
      else
        let n : Int := (Text.digits? digits).getD 0
        some (some (if negative then -n else n), rest.dropWhile Char.isDigit)
    else some (none, t)
  | [] => some (none, [])

def number? (t : Text) : Option (Json × Text) := do
  let (negative, t) :=
    match t with
    | '-' :: r => (true, r)
    | r => (false, r)
  let whole := t.takeWhile Char.isDigit
  let t := t.dropWhile Char.isDigit
  if whole.isEmpty || (1 < whole.length && whole.head? == some '0') then none
  let (fraction, t) ← match t with
    | '.' :: r =>
      let digits := r.takeWhile Char.isDigit
      if digits.isEmpty then none else some (some digits, r.dropWhile Char.isDigit)
    | r => some (none, r)
  let (exponent, t) ← exponent? t
  match fraction, exponent with
  | none, none =>
    let n := (Text.digits? whole).getD 0
    let i : Int := if negative then -n else n
    if Json.fits i then return (.int i, t)
    let x ← decimal? n 0
    return (.float (if negative then -x else x), t)
  | _, _ =>
    let places := fraction.getD []
    let mantissa := (Text.digits? (whole ++ places)).getD 0
    let x ← decimal? mantissa (exponent.getD 0 - places.length)
    return (.float (if negative then -x else x), t)

mutual

/-- A value inside `depth` more brackets at most. -/
def value? : Nat → Nat → Text → Option (Json × Text)
  | 0, _, _ => none
  | fuel + 1, depth, t =>
    match t with
    | '"' :: rest => do
      let (s, rest) ← stringTail? (rest.length + 1) [] rest
      return (.str s, rest)
    | '[' :: rest =>
      match depth with
      | 0 => none
      | depth + 1 =>
        match skipSpace rest with
        | ']' :: rest => some (.arr [], rest)
        | rest => elements? fuel depth [] rest
    | '\x7b' :: rest =>
      match depth with
      | 0 => none
      | depth + 1 =>
        match skipSpace rest with
        | '\x7d' :: rest => some (.obj [], rest)
        | rest => members? fuel depth [] rest
    | 't' :: _ => (skipWord? "true".toList t).map (.bool true, ·)
    | 'f' :: _ => (skipWord? "false".toList t).map (.bool false, ·)
    | 'n' :: _ => (skipWord? "null".toList t).map (.null, ·)
    | _ => number? t

/-- The elements of an array up to its closing bracket; `acc` holds those read, last first. -/
def elements? : Nat → Nat → List Json → Text → Option (Json × Text)
  | 0, _, _, _ => none
  | fuel + 1, depth, acc, t => do
    let (j, rest) ← value? fuel depth t
    match skipSpace rest with
    | ',' :: rest => elements? fuel depth (j :: acc) (skipSpace rest)
    | ']' :: rest => return (.arr (j :: acc).reverse, rest)
    | _ => none

def members? : Nat → Nat → List (Text × Json) → Text → Option (Json × Text)
  | 0, _, _, _ => none
  | fuel + 1, depth, acc, t =>
    match t with
    | '"' :: rest => do
      let (name, rest) ← stringTail? (rest.length + 1) [] rest
      match skipSpace rest with
      | ':' :: rest =>
        let (j, rest) ← value? fuel depth (skipSpace rest)
        let acc := setMember name j acc
        match skipSpace rest with
        | ',' :: rest => members? fuel depth acc (skipSpace rest)
        | '\x7d' :: rest => return (.obj acc, rest)
        | _ => none
      | _ => none
    | _ => none

end

/-- The one value that a text holds. -/
def read? (t : Text) : Option Json := do
  let (j, rest) ← value? (2 * t.length + 1) maxDepth (skipSpace t)
  if (skipSpace rest).isEmpty then some j else none

end NoteQuery.Json

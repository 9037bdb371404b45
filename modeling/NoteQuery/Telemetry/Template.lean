import NoteQuery.Datum.Shown

/-!
# Message templates

A log message is a template with places for arguments: `%s` stands for an argument as plain text,
`%r` for it as messages show it, `%d` for a whole number, `%x` and `%o` for one in another base,
`%f`, `%e` and `%g` for a number with a fraction, `%c` for a character and `%%` for a per cent
sign. Between the sign and the letter may stand a name in parentheses, flags, a width and a
precision.
-/

set_option autoImplicit false

namespace NoteQuery

namespace Template

/-- What can go wrong when a template is filled. -/
inductive Failure where
  | tooFewArguments
  | tooManyArguments
  /-- A place asks for an argument by name, and arguments have none. -/
  | noNames
  | unknownName (name : Text)
  /-- The template ends in the middle of a place. -/
  | incomplete
  | unknownLetter (letter : Char) (index : Nat)
  | notNumber (letter : Char) (argument : Datum)
  | notInteger (letter : Char) (argument : Datum)
  | notReal (argument : Datum)
  | notCharacter
  | characterRange

def Failure.message : Failure → Text
  | .tooFewArguments => "not enough arguments for format string".toList
  | .tooManyArguments => "not all arguments converted during string formatting".toList
  | .noNames => "format requires a mapping".toList
  | .unknownName name => Text.shown name
  | .incomplete => "incomplete format".toList
  | .unknownLetter c i => "unsupported format character '".toList ++ [c] ++ "' (0x".toList ++
      Nat.toDigits 16 c.toNat ++ ") at index ".toList ++ Text.ofNat i
  | .notNumber c d => '%' :: c :: " format: a real number is required, not ".toList ++ d.kindName
  | .notInteger c d => '%' :: c :: " format: an integer is required, not ".toList ++ d.kindName
  | .notReal d => "must be real number, not ".toList ++ d.kindName
  | .notCharacter => "%c requires int or char".toList
  | .characterRange => "%c arg not in range(0x110000)".toList

/-- A place for an argument. -/
structure Slot where
  name : Option Text
  flags : List Char
  width : Nat
  precision : Option Nat
  letter : Char

/-- A place after its per cent sign, with what follows it and the number of characters it took. -/
def slot? (t : Text) : Option (Slot × Text × Nat) := do
  let (name, t') ← match t with
    | '(' :: rest =>
      match rest.dropWhile (· != ')') with
      | _ :: after => some (some (rest.takeWhile (· != ')')), after)
      | [] => none
    | _ => some (none, t)
  let isFlag (c : Char) : Bool := ['#', '0', '-', ' ', '+'].contains c
  let flags := t'.takeWhile isFlag
  let t' := t'.dropWhile isFlag
  let width := (Text.digits? (t'.takeWhile Char.isDigit)).getD 0
  let t' := t'.dropWhile Char.isDigit
  let (precision, t') :=
    match t' with
    | '.' :: rest => (some ((Text.digits? (rest.takeWhile Char.isDigit)).getD 0),
        rest.dropWhile Char.isDigit)
    | _ => (none, t')
  let t' :=
    match t' with
    | c :: rest => if c = 'l' || c = 'h' || c = 'L' then rest else t'
    | [] => t'
  match t' with
  | letter :: rest => some (⟨name, flags, width, precision, letter⟩, rest, t.length - rest.length)
  | [] => none

namespace Slot

def pad (s : Slot) (t : Text) : Text :=
  if s.flags.contains '-' then Text.padRight ' ' s.width t else Text.padLeft ' ' s.width t

/-- Digits with their sign and mark brought to the width of a place. -/
def padNumber (s : Slot) (negative : Bool) (mark digits : Text) : Text :=
  let sign : Text :=
    if negative then ['-']
    else if s.flags.contains '+' then ['+']
    else if s.flags.contains ' ' then [' ']
    else []
  if s.flags.contains '0' && !s.flags.contains '-' then
    sign ++ mark ++ Text.padLeft '0' (s.width - sign.length - mark.length) digits
  else s.pad (sign ++ mark ++ digits)

def integer (s : Slot) (base : Nat) (mark : Text) (i : Int) : Text :=
  let digits := Nat.toDigits base i.natAbs
  let digits := Text.padLeft '0' (s.precision.getD 0) digits
  s.padNumber (i < 0) (if s.flags.contains '#' then mark else []) digits

end Slot

/-- The `count` leading digits of a positive fraction, rounded, and the power of ten of the first
of them. -/
def leadingDigits (num den count : Nat) : Nat × Int :=
  let power : Int :=
    if den ≤ num then (Nat.toDigits 10 (num / den)).length - 1
    else
      let n := (Nat.toDigits 10 (den / num)).length
      if den ≤ num * Nat.pow 10 (n - 1) then -(n - 1 : Nat) else -(n : Int)
  let shift : Int := count - 1 - power
  let c := Decimal.roundDiv (num * Nat.pow 10 shift.toNat) (den * Nat.pow 10 (-shift).toNat)
  if c == Nat.pow 10 count then (c / 10, power + 1) else (c, power)

def exponentText (power : Int) : Text :=
  'e' :: (if power < 0 then '-' else '+') :: Text.ofNatPadded 2 power.natAbs

def dropZeros (t : Text) : Text :=
  if t.contains '.' then
    let r := t.reverse.dropWhile (· == '0')
    ((if r.head? == some '.' then r.drop 1 else r)).reverse
  else t

def scientific (num den places : Nat) : Text :=
  let (c, power) := if num == 0 then (0, 0) else leadingDigits num den (places + 1)
  let digits := Text.ofNatPadded (places + 1) c
  digits.take 1 ++ (if places == 0 then [] else '.' :: digits.drop 1) ++ exponentText power

def fixedPoint (num den places : Nat) : Text :=
  let scaled := Decimal.roundDiv (num * Nat.pow 10 places) den
  Text.ofNat (scaled / Nat.pow 10 places) ++
    (if places == 0 then [] else '.' :: Text.ofNatPadded places (scaled % Nat.pow 10 places))

/-- The digits of a fraction in whichever notation is shorter. -/
def general (num den precision : Nat) (keepZeros : Bool) : Text :=
  let count := max precision 1
  let power := if num == 0 then 0 else (leadingDigits num den count).2
  let trim (t : Text) : Text := if keepZeros then t else dropZeros t
  if power < -4 || (count : Int) ≤ power then
    let t := scientific num den (count - 1)
    trim (t.takeWhile (· != 'e')) ++ t.dropWhile (· != 'e')
  else trim (fixedPoint num den (count - 1 - power).toNat)

/-- A number with a fraction at a place. -/
def real (s : Slot) (d : Datum) : Except Failure Text :=
  match d with
  | .bool _ | .int _ | .float _ =>
    let upper (t : Text) : Text := if s.letter.isUpper then t.map Char.toUpper else t
    match d.number? with
    | some (n, den) =>
      let places := s.precision.getD 6
      let digits :=
        match s.letter.toLower with
        | 'e' => scientific n.natAbs den places
        | 'g' => general n.natAbs den places (s.flags.contains '#')
        | _ => fixedPoint n.natAbs den places
      let negative := n < 0 || (match d with
        | .float x => x.toBits.toNat / Nat.pow 2 63 == 1
        | _ => false)
      .ok (s.padNumber negative [] (upper digits))
    | none =>
      match d with
      | .float x => .ok (s.pad (upper (Decimal.ofFloat x)))
      | _ => .error (.notReal d)
  | _ => .error (.notReal d)

def based (s : Slot) (base : Nat) (mark : Text) : Datum → Except Failure Text
  | .int i => .ok (s.integer base mark i)
  | .bool b => .ok (s.integer base mark (if b then 1 else 0))
  | d => .error (.notInteger s.letter d)

/-- A number without its fraction. -/
def truncated (s : Slot) (d : Datum) : Except Failure Text :=
  match d with
  | .bool _ | .int _ | .float _ =>
    match d.number? with
    | some (n, den) => .ok (s.integer 10 [] (n.tdiv den))
    | none => .error (.notNumber s.letter d)
  | _ => .error (.notNumber s.letter d)

/-- An argument at a place whose sign has a given index in the template. -/
def convert (s : Slot) (index : Nat) (d : Datum) : Except Failure Text :=
  let cut (t : Text) : Text :=
    match s.precision with
    | some n => t.take n
    | none => t
  match s.letter with
  | 's' => .ok (s.pad (cut d.plain))
  | 'r' | 'a' => .ok (s.pad (cut d.shown))
  | 'd' | 'i' | 'u' => truncated s d
  | 'x' => based s 16 "0x".toList d
  | 'X' => (based { s with letter := 'x' } 16 "0x".toList d).map (·.map Char.toUpper)
  | 'o' => based s 8 "0o".toList d
  | 'e' | 'E' | 'f' | 'F' | 'g' | 'G' => real s d
  | 'c' =>
    match d with
    | .text [c] => .ok (s.pad [c])
    | .int i =>
      if 0 ≤ i && i < 0x110000 then .ok (s.pad [Char.ofNat i.toNat]) else .error .characterRange
    | _ => .error .notCharacter
  | c => .error (.unknownLetter c index)

/-- The arguments of a template. -/
structure Arguments where
  rest : List Datum
  named : Option (List (Text × Datum))

namespace Arguments

/-- Arguments as they are handed over: one record alone stands for arguments with names, and can
also be used as a whole. -/
def ofList : List Datum → Arguments
  | [.record (m :: ms)] => ⟨[.record (m :: ms)], some (m :: ms)⟩
  | ds => ⟨ds, none⟩

def take (a : Arguments) (s : Slot) : Except Failure (Datum × Arguments) :=
  match s.name with
  | some name =>
    match a.named with
    | none => .error .noNames
    | some ms =>
      match getMember? name ms with
      | some d => .ok (d, a)
      | none => .error (.unknownName name)
  | none =>
    match a.rest with
    | d :: ds => .ok (d, { a with rest := ds })
    | [] => .error .tooFewArguments

end Arguments

/-- What is left of a template, filled; `index` is the place of its first character. -/
def fillFrom : Nat → Nat → Text → Arguments → Except Failure Text
  | 0, _, _, _ => .error .incomplete
  | _ + 1, _, [], a =>
    if a.rest.isEmpty || a.named.isSome then .ok [] else .error .tooManyArguments
  | fuel + 1, index, '%' :: t, a =>
    match slot? t with
    | none => .error .incomplete
    | some (s, rest, count) =>
      if s.letter = '%' then
        return '%' :: (← fillFrom fuel (index + 1 + count) rest a)
      else do
        let (d, a) ← a.take s
        let piece ← convert s (index + count) d
        return piece ++ (← fillFrom fuel (index + 1 + count) rest a)
  | fuel + 1, index, c :: t, a => return c :: (← fillFrom fuel (index + 1) t a)

/-- A template filled with arguments; without any it stands as it is. -/
def fill (template : Text) (arguments : List Datum) : Except Failure Text :=
  if arguments.isEmpty then .ok template
  else fillFrom (template.length + 1) 0 template (.ofList arguments)

end Template

end NoteQuery

import NoteQuery.Intake.Check
import NoteQuery.Json.Reader

/-!
# Reading single values

Conversions are generous: a whole number may come as a text or as a floating point number without
a fraction, a truth value as a word or a number, a number as a text. Bytes count as the text that
they hold in UTF-8. A text is never made from anything else.
-/

set_option autoImplicit false

namespace NoteQuery.Intake

def ofBytes {α : Type} (check : Text → Check α) (unreadable : Flaw) (bytes : List Nat) : Check α :=
  match Text.ofUtf8? ⟨(bytes.map UInt8.ofNat).toArray⟩ with
  | some t => check t
  | none => .flaw unreadable

def text : Datum → Check Text
  | .text t => .accepted t
  | .bytes b => ofBytes .accepted .notUnicode b
  | _ => .flaw .notText

def nonEmptyText (d : Datum) : Check Text :=
  (text d).andThen fun t => if t.isEmpty then .flaw .textTooShort else .accepted t

def isPadding (c : Char) : Bool :=
  Text.isBlank c && !(0x1c ≤ c.toNat && c.toNat ≤ 0x1f)

def unpad (t : Text) : Text :=
  ((t.dropWhile isPadding).reverse.dropWhile isPadding).reverse

/-- A text without its underscores, where each of them stands between two characters of which
neither is one. -/
def dropUnderscores? (t : Text) : Option Text :=
  if t.head? == some '_' || t.getLast? == some '_' ||
      (t.zip (t.drop 1)).any (fun p => p.1 == '_' && p.2 == '_') then none
  else some (t.filter (· != '_'))

def dropZeroFraction (t : Text) : Text :=
  let places := (t.dropWhile (· != '.')).drop 1
  if !places.isEmpty && places.all (· == '0') then t.takeWhile (· != '.') else t

/-- A text that begins with a zero, without its zeros at the front and the underscores among them;
the last of these stays where no other digit follows. -/
def dropLeadingZeros (t : Text) : Text :=
  if t.head? == some '0' then
    let isFiller (c : Char) : Bool := c == '0' || c == '_'
    let rest := t.dropWhile isFiller
    match rest.head? with
    | none | some '.' => (t.takeWhile isFiller).getLast?.toList ++ rest
    | some _ => rest
  else t

/-- The whole number that a text spells: digits, which underscores may divide, after a sign and
before a fraction of zeros. -/
def readInteger? (t : Text) : Option Int := do
  let (negative, t) :=
    match unpad t with
    | '-' :: r => (true, r)
    | '+' :: r => (false, r)
    | r => (false, r)
  let digits ← dropUnderscores? (dropZeroFraction (dropLeadingZeros t))
  if digits.isEmpty then none
  let n ← Text.digits? digits
  return if negative then -(n : Int) else n

/-- How long the text of a whole number may be. -/
def maxNumeralLength : Nat := 4300

/-- The whole number that a floating point number is. -/
def integerOfFloat (x : Float) : Check Int :=
  match Datum.fraction? x with
  | none => .flaw .notFinite
  | some (n, d) =>
    if n % d != 0 then .flaw .fractionalInteger
    else
      let i := n / d
      if -9223372036854775808 < i && i < 9223372036854775808 then .accepted i
      else .flaw .integerSize

/-- The whole number that a text spells, if the text is not too long. -/
def integerOfText (t : Text) : Check Int :=
  if maxNumeralLength < t.length then .flaw .integerSize
  else
    match readInteger? t with
    | some i => .accepted i
    | none => .flaw .unreadableInteger

/-- A whole number. -/
def integer : Datum → Check Int
  | .int i => .accepted i
  | .bool b => .accepted (if b then 1 else 0)
  | .float x => integerOfFloat x
  | .text t => integerOfText t
  | .bytes b => ofBytes integerOfText .unreadableInteger b
  | _ => .flaw .notInteger

def integerFrom (bound : Int) (d : Datum) : Check Int :=
  (integer d).andThen fun i => if i < bound then .flaw .tooSmall else .accepted i

def trueWords : List Text := ["1", "true", "t", "yes", "y", "on"].map String.toList

def falseWords : List Text := ["0", "false", "f", "no", "n", "off"].map String.toList

def truthOfText (t : Text) : Check Bool :=
  let word := t.map Char.toLower
  if trueWords.contains word then .accepted true
  else if falseWords.contains word then .accepted false
  else .flaw .unreadableTruth

def truth : Datum → Check Bool
  | .bool b => .accepted b
  | .text t => truthOfText t
  | .bytes b => ofBytes truthOfText .unreadableTruth b
  | .int i =>
    if i = 1 then .accepted true else if i = 0 then .accepted false else .flaw .unreadableTruth
  | .float x =>
    match integerOfFloat x with
    | .accepted 1 => .accepted true
    | .accepted 0 => .accepted false
    | .accepted _ => .flaw .unreadableTruth
    | _ => .flaw .notTruth
  | _ => .flaw .notTruth

def floatOfInt (i : Int) : Float :=
  let x := Float.ofScientific i.natAbs false 0
  if i < 0 then -x else x

/-- The number that a text spells, in decimal notation or as one of the words for what is not
finite. White space may stand around a text without underscores. -/
def readNumber? (t : Text) : Option Float := do
  let t ← if t.contains '_' then dropUnderscores? t else some (unpad t)
  let (negative, t) :=
    match t with
    | '-' :: r => (true, r)
    | '+' :: r => (false, r)
    | r => (false, r)
  let signed (x : Float) : Float := if negative then -x else x
  let word := t.map Char.toLower
  if word = "inf".toList || word = "infinity".toList then return signed (1.0 / 0.0)
  if word = "nan".toList then return 0.0 / 0.0
  let whole := t.takeWhile Char.isDigit
  let t := t.dropWhile Char.isDigit
  let (places, t) :=
    match t with
    | '.' :: r => (r.takeWhile Char.isDigit, r.dropWhile Char.isDigit)
    | r => ([], r)
  if whole.isEmpty && places.isEmpty then none
  let (exponent, rest) ← Json.exponent? t
  if !rest.isEmpty then none
  let mantissa := (Text.digits? (whole ++ places)).getD 0
  return signed ((Json.decimal? mantissa (exponent.getD 0 - places.length)).getD (1.0 / 0.0))

def numberOfText (t : Text) : Check Float :=
  match readNumber? t with
  | some x => .accepted x
  | none => .flaw .unreadableNumber

def number : Datum → Check Float
  | .float x => .accepted x
  | .int i => if (floatOfInt i).isFinite then .accepted (floatOfInt i) else .flaw .notNumber
  | .bool b => .accepted (if b then 1.0 else 0.0)
  | .text t => numberOfText t
  | .bytes b => ofBytes numberOfText .unreadableNumber b
  | _ => .flaw .notNumber

def numberFrom (bound : Float) (d : Datum) : Check Float :=
  (number d).andThen fun x => if x < bound then .flaw .tooSmall else .accepted x

/-- Nothing, or a value. -/
def orNull {α : Type} (check : Datum → Check α) : Datum → Check (Option α)
  | .null => .accepted none
  | d => (check d).map some

/-- The entries of a collection that has an order or can be brought into one. -/
def elements? : Datum → Option (List Datum)
  | .list es | .tuple es | .set _ es => some es
  | _ => none

def listOf {α : Type} (check : Datum → Check α) (d : Datum) : Check (List α) :=
  match elements? d with
  | some es => Check.entries check 0 es
  | none => .flaw .notList

def pairOf {α : Type} (check : Datum → Check α) (d : Datum) : Check (α × α) :=
  match elements? d with
  | none => .flaw .notTuple
  | some (_ :: _ :: _ :: _) => .flaw .tooLong
  | some es =>
    let entry (i : Nat) : Check α :=
      (match es[i]? with
        | some e => check e
        | none => .flaw .missing).under (.entry i)
    (entry 0).both (entry 1)

def members : Datum → Check (List (Text × Datum))
  | .record ms => .accepted ms
  | _ => .flaw .notRecord

/-- A member that has to be there. -/
def required {α : Type} (name : String) (check : Datum → Check α) (ms : List (Text × Datum)) :
    Check α :=
  (match getMember? name.toList ms with
    | some d => check d
    | none => .flaw .missing).under (.member name.toList)

/-- A member that may be left out. -/
def optional {α : Type} (name : String) (default : α) (check : Datum → Check α)
    (ms : List (Text × Datum)) : Check α :=
  match getMember? name.toList ms with
  | some d => (check d).under (.member name.toList)
  | none => .accepted default

end NoteQuery.Intake

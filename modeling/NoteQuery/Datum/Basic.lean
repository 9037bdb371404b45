import NoteQuery.Decimal.Notation
import NoteQuery.Json.Basic

/-!
# Loosely typed values

Notes, options and log attributes come from callers as values of any shape. A `Datum` is such a
value: what JSON can hold, and beside it the collections, bytes and errors that a caller may hand
over.
-/

set_option autoImplicit false

namespace NoteQuery

/-- A loosely typed value. -/
inductive Datum where
  | null
  | bool (b : Bool)
  | int (i : Int)
  | float (x : Float)
  | text (t : Text)
  | bytes (b : List Nat)
  | list (elements : List Datum)
  | tuple (elements : List Datum)
  /-- A set of distinct values; a frozen one never changes. -/
  | set (frozen : Bool) (elements : List Datum)
  | record (members : List (Text × Datum))
  /-- An error: the name of its kind, its message, and the text that shows it. -/
  | failure (kind message shown : Text)
  /-- Anything else: the name of its kind, its plain text, and the text that shows it. -/
  | other (kind plain shown : Text)
  deriving Inhabited

namespace Datum

def kindName : Datum → Text
  | .null => "NoneType".toList
  | .bool _ => "bool".toList
  | .int _ => "int".toList
  | .float _ => "float".toList
  | .text _ => "str".toList
  | .bytes _ => "bytes".toList
  | .list _ => "list".toList
  | .tuple _ => "tuple".toList
  | .set false _ => "set".toList
  | .set true _ => "frozenset".toList
  | .record _ => "dict".toList
  | .failure kind _ _ | .other kind _ _ => kind

mutual

def ofJson : Json → Datum
  | .null => .null
  | .bool b => .bool b
  | .int i => .int i
  | .float x => .float x
  | .str t => .text t
  | .arr elements => .list (ofElements elements)
  | .obj members => .record (ofMembers members)

def ofElements : List Json → List Datum
  | [] => []
  | j :: rest => ofJson j :: ofElements rest

def ofMembers : List (Text × Json) → List (Text × Datum)
  | [] => []
  | (name, j) :: rest => (name, ofJson j) :: ofMembers rest

end

/-- Whether a value counts as true: nothing, zero and what is empty do not. -/
def isTruthy : Datum → Bool
  | .null => false
  | .bool b => b
  | .int i => i != 0
  | .float x => !(x == 0.0)
  | .text t => !t.isEmpty
  | .bytes b => !b.isEmpty
  | .list es | .tuple es | .set _ es => !es.isEmpty
  | .record ms => !ms.isEmpty
  | .failure _ _ _ | .other _ _ _ => true

/-- The exact value of a floating point number as a fraction, if it is finite. -/
def fraction? (x : Float) : Option (Int × Nat) :=
  match Decimal.Parts.ofFloat x with
  | .nan | .infinite _ => none
  | .zero _ => some (0, 1)
  | .finite negative m q _ =>
    let n : Int := m * Nat.pow 2 q.toNat
    some (if negative then -n else n, Nat.pow 2 (-q).toNat)

/-- The exact value of a number as a fraction; truth values count as one and zero. -/
def number? : Datum → Option (Int × Nat)
  | .bool b => some (if b then 1 else 0, 1)
  | .int i => some (i, 1)
  | .float x => fraction? x
  | _ => none

mutual

/-- Whether two values are equal. Numbers of different kinds are equal when they have the same
value. -/
def equal : Datum → Datum → Bool
  | .text s, .text t => s == t
  | .null, .null => true
  | .bytes a, .bytes b => a == b
  | .list as, .list bs => equalList as bs
  | .tuple as, .tuple bs => equalList as bs
  | .set _ as, .set _ bs => as.length == bs.length && subset as bs
  | .record as, .record bs => as.length == bs.length && subrecord as bs
  | .other k _ s, .other l _ t => k == l && s == t
  | a, b =>
    match number? a, number? b with
    | some (n, d), some (m, e) => n * e == m * d
    | _, _ => false

def equalList : List Datum → List Datum → Bool
  | [], [] => true
  | a :: as, b :: bs => equal a b && equalList as bs
  | _, _ => false

def subset : List Datum → List Datum → Bool
  | [], _ => true
  | a :: as, bs => bs.any (equal a) && subset as bs

/-- Whether every member of one record is one of another. -/
def subrecord : List (Text × Datum) → List (Text × Datum) → Bool
  | [], _ => true
  | (name, a) :: as, bs =>
    (bs.any fun m => m.1 == name && equal a m.2) && subrecord as bs

end

/-- The distinct values among some; the first of equal ones stays. -/
def distinct : List Datum → List Datum
  | [] => []
  | d :: ds => d :: (distinct ds).filter fun e => !equal d e

/-- A pair of values that have no order. -/
structure Unordered where
  left : Datum
  right : Datum

mutual

/-- Whether a value comes before another, if the two have an order: numbers by value, texts and
bytes by code points, lists and tuples entry by entry, sets by inclusion. -/
def before? : Datum → Datum → Except Unordered Bool
  | .text s, .text t => .ok (Text.before s t)
  | .bytes a, .bytes b => .ok (decide (a < b))
  | .list as, .list bs => beforeList? as bs
  | .tuple as, .tuple bs => beforeList? as bs
  | .set _ as, .set _ bs => .ok (as.length < bs.length && subset as bs)
  | a, b =>
    match number? a, number? b with
    | some (n, d), some (m, e) => .ok (decide (n * e < m * d))
    | _, _ => .error ⟨a, b⟩

/-- Whether a list comes before another: by the first entries that differ, or by length. -/
def beforeList? : List Datum → List Datum → Except Unordered Bool
  | [], bs => .ok !bs.isEmpty
  | _ :: _, [] => .ok false
  | a :: as, b :: bs => if equal a b then beforeList? as bs else before? a b

end

/-- A sorted list with one more value, behind those that do not come after it. -/
def insert? (d : Datum) : List Datum → Except Unordered (List Datum)
  | [] => .ok [d]
  | e :: es => do
    if ← before? d e then return d :: e :: es
    return e :: (← insert? d es)

/-- Values in ascending order, if each two of them that are compared have one. -/
def sorted? (ds : List Datum) : Except Unordered (List Datum) :=
  ds.foldlM (fun acc d => insert? d acc) []

end Datum

end NoteQuery

import NoteQuery.Datum.Shown

/-!
# Loosely typed values as JSON

Collections become arrays, a set a sorted one where its values have an order; an error becomes its
message, and anything that JSON does not know the text that shows it. Whole numbers have to fit
into 64 bits, with or without a sign.
-/

set_option autoImplicit false

namespace NoteQuery.Datum

/-- A whole number is too large for 64 bits. -/
inductive SerialError where
  | integerRange (i : Int)
  deriving DecidableEq, Repr

def SerialError.message : SerialError → Text
  | .integerRange _ => "Integer exceeds 64-bit range".toList

mutual

/-- A value with its sets in order, as far as they have one. -/
def arranged : Datum → Datum
  | .list es => .list (arrangedList es)
  | .tuple es => .tuple (arrangedList es)
  | .set frozen es =>
    let es := arrangedList es
    .set frozen (match sorted? es with
      | .ok sorted => sorted
      | .error _ => es)
  | .record ms => .record (arrangedMembers ms)
  | d => d

/-- Several values with their sets in order. -/
def arrangedList : List Datum → List Datum
  | [] => []
  | d :: ds => arranged d :: arrangedList ds

def arrangedMembers : List (Text × Datum) → List (Text × Datum)
  | [] => []
  | (name, d) :: rest => (name, arranged d) :: arrangedMembers rest

end

mutual

def serialize : Datum → Except SerialError Json
  | .null => .ok .null
  | .bool b => .ok (.bool b)
  | .int i => if Json.fits i then .ok (.int i) else .error (.integerRange i)
  | .float x => .ok (.float x)
  | .text t => .ok (.str t)
  | .list es | .tuple es | .set _ es => return .arr (← serializeList es)
  | .record ms => return .obj (← serializeMembers ms)
  | .failure _ message _ => .ok (.str message)
  | .bytes b => .ok (.str (Text.shownBytes b))
  | .other _ _ shown => .ok (.str shown)

def serializeList : List Datum → Except SerialError (List Json)
  | [] => .ok []
  | d :: ds => return (← serialize d) :: (← serializeList ds)

def serializeMembers : List (Text × Datum) → Except SerialError (List (Text × Json))
  | [] => .ok []
  | (name, d) :: rest => return (name, ← serialize d) :: (← serializeMembers rest)

end

def toJson (d : Datum) : Except SerialError Json :=
  serialize (arranged d)

end NoteQuery.Datum

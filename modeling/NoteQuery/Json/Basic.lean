import NoteQuery.Order.Members
import NoteQuery.Text.Basic

/-!
# JSON values

The values of JSON. Whole numbers and floating point numbers are kept apart, and an object is a
list of its members in order, in which each name stands once.
-/

set_option autoImplicit false

namespace NoteQuery

/-- A JSON value. -/
inductive Json where
  /-- The value `null`. -/
  | null
  | bool (b : Bool)
  | int (i : Int)
  | float (x : Float)
  | str (t : Text)
  | arr (elements : List Json)
  | obj (members : List (Text × Json))
  deriving Inhabited

namespace Json

/-- Whether a whole number fits into 64 bits, with or without a sign. -/
def fits (i : Int) : Bool :=
  -9223372036854775808 ≤ i && i < 18446744073709551616

def string (s : String) : Json :=
  .str s.toList

def object (members : List (String × Json)) : Json :=
  .obj (members.map fun m => (m.1.toList, m.2))

mutual

def texts : Json → List Text
  | .str t => [t]
  | .arr elements => textsOfElements elements
  | .obj members => textsOfMembers members
  | .null | .bool _ | .int _ | .float _ => []

def textsOfElements : List Json → List Text
  | [] => []
  | j :: rest => texts j ++ textsOfElements rest

def textsOfMembers : List (Text × Json) → List Text
  | [] => []
  | (name, j) :: rest => name :: texts j ++ textsOfMembers rest

end

/-- A value, or `null` for none. -/
def ofOption {α : Type} (f : α → Json) : Option α → Json
  | some a => f a
  | none => .null

def get? (j : Json) (name : String) : Option Json :=
  match j with
  | .obj members => getMember? name.toList members
  | _ => none

end Json

end NoteQuery

import NoteQuery.Query.Error
import NoteQuery.Query.Printer

/-!
# Trees from callers

Callers build trees of their own and hand them over to be written down, counted or walked through.
A connective needs two children; a node of an unknown kind cannot be walked through, and neither
can a tree that is taller than `Tree.heightLimit`. On trees that are free of all that, the checked
operations agree with the plain ones.
-/

set_option autoImplicit false

namespace NoteQuery

/-- Why a tree cannot be built or walked through. -/
inductive TreeError where
  | fewChildren (connective : Connective)
  | unknownKind (kind : Text)
  | tooTall
  deriving DecidableEq, Repr

def TreeError.message : TreeError → Text
  | .fewChildren .and => "AndOp requires at least two children".toList
  | .fewChildren .or => "OrOp requires at least two children".toList
  | .unknownKind kind => "Expected code to be unreachable, but got: ".toList ++ kind ++ "()".toList
  | .tooTall => "maximum recursion depth exceeded".toList

namespace Tree

/-- How tall a tree may be. A walk calls itself once for every level, and no more than a thousand
calls may be open at a time, those around the walk included. The number stands for that limit: the
exact height at which a walk fails depends on what surrounds it. -/
def heightLimit : Nat := 960

def joined (connective : Connective) (children : List Tree) : Tree :=
  match connective with
  | .and => .all children
  | .or => .any children

def join? (connective : Connective) (children : List Tree) : Except TreeError Tree :=
  if children.length < 2 then .error (.fewChildren connective)
  else .ok (joined connective children)

mutual

/-- What stops a walk through a tree, in the order in which the walk comes to the nodes. `deep`
tells whether it enters negations, and `room` how tall the tree may be. -/
def obstacle? (deep : Bool) (room : Nat) (t : Tree) : Option TreeError :=
  match room with
  | 0 => some .tooTall
  | room + 1 =>
    match t with
    | .leaf _ _ => none
    | .all cs => obstacleIn? deep room cs
    | .any cs => obstacleIn? deep room cs
    | .negation c => if deep then obstacle? deep room c else none
    | .group c => obstacle? deep room c
    | .absent => none
    | .unknown kind => some (.unknownKind kind)

/-- What stops a walk through several trees, one after the other. -/
def obstacleIn? (deep : Bool) (room : Nat) : List Tree → Option TreeError
  | [] => none
  | c :: cs => obstacle? deep room c <|> obstacleIn? deep room cs

end

def walk? {α : Type} (deep : Bool) (result : Tree → α) (t : Tree) : Except TreeError α :=
  match t.obstacle? deep heightLimit with
  | some e => .error e
  | none => .ok (result t)

def render? (t : Tree) : Except TreeError Text :=
  t.walk? true render

/-- The number of nodes of a tree, if it can be walked through. -/
def size? (t : Tree) : Except TreeError Nat :=
  t.walk? true size

/-- The leaves of a tree that speak for a hit, if it can be walked through outside its
negations. -/
def leaves? (t : Tree) : Except TreeError (List (Field × Text)) :=
  t.walk? false leaves

end Tree

end NoteQuery

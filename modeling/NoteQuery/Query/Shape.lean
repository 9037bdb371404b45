import NoteQuery.Query.Grammar
import NoteQuery.Query.Printer

/-!
# Which trees can be written

Not every tree has a text: without parentheses a conjunction cannot stand below a connective, nor
a connective below a negation, and a value that cannot be written in quotes or bare is lost.
`Tree.Writable` gathers what a tree needs in order to come back from its canonical text.
-/

set_option autoImplicit false

namespace NoteQuery.Tree

def isConjunction : Tree → Bool
  | .all _ => true
  | _ => false

def isDisjunction : Tree → Bool
  | .any _ => true
  | _ => false

mutual

/-- Whether every connective that would bind too loosely stands in a group: no connective is a
child of a conjunction or of a negation, and no disjunction is a child of a disjunction. -/
def Layered : Tree → Prop
  | .leaf _ _ => True
  | .all cs => (∀ c ∈ cs, c.isConjunction = false ∧ c.isDisjunction = false) ∧ LayeredList cs
  | .any cs => (∀ c ∈ cs, c.isDisjunction = false) ∧ LayeredList cs
  | .negation c => c.isConjunction = false ∧ c.isDisjunction = false ∧ Layered c
  | .group c => Layered c
  | .absent => True
  | .unknown _ => True

def LayeredList : List Tree → Prop
  | [] => True
  | c :: cs => Layered c ∧ LayeredList cs

end

mutual

/-- The values of all leaves, from left to right. -/
def values : Tree → List Text
  | .leaf _ v => [v]
  | .all cs => valuesList cs
  | .any cs => valuesList cs
  | .negation c => values c
  | .group c => values c
  | .absent => []
  | .unknown _ => []

def valuesList : List Tree → List Text
  | [] => []
  | c :: cs => values c ++ valuesList cs

end

/-- Whether a value can be read back: it is not empty, holds no quote, and holds stray characters
only if something else forces it into quotes. -/
def WritableValue (value : Text) : Prop :=
  value ≠ [] ∧ '"' ∉ value ∧
    (value.any (fun c => Text.isBlank c || Text.isParen c || c == ':') = true ∨
      value.any Text.isStray = false)

instance (value : Text) : Decidable (WritableValue value) :=
  inferInstanceAs (Decidable (_ ∧ _ ∧ _))

/-- Whether a tree comes back from its canonical text. -/
def Writable (t : Tree) : Prop :=
  t.Layered ∧ t.nesting ≤ Grammar.maxNesting ∧ ∀ v ∈ t.values, WritableValue v

end NoteQuery.Tree

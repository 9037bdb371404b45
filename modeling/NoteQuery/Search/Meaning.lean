import NoteQuery.Search.Matching

/-!
# The meaning of a query tree

A tree is a formula: once it is known which leaves hold, `Tree.holds` is its truth value. For the
notes of one id a leaf holds when it matches one of them, and `Tree.selects` lists the notes that
a tree stands for: the first note of each id for which the tree holds.
-/

set_option autoImplicit false

namespace NoteQuery

namespace Tree

mutual

/-- The truth value of a tree; an absent node, or one of an unknown kind, never holds. -/
def holds (leaf : Field → Text → Bool) : Tree → Bool
  | .leaf f v => leaf f v
  | .all cs => allHold leaf cs
  | .any cs => anyHolds leaf cs
  | .negation c => !holds leaf c
  | .group c => holds leaf c
  | .absent => false
  | .unknown _ => false

def allHold (leaf : Field → Text → Bool) : List Tree → Bool
  | [] => true
  | c :: cs => holds leaf c && allHold leaf cs

def anyHolds (leaf : Field → Text → Bool) : List Tree → Bool
  | [] => false
  | c :: cs => holds leaf c || anyHolds leaf cs

end

theorem allHold_iff {leaf : Field → Text → Bool} {cs : List Tree} :
    allHold leaf cs = true ↔ ∀ c ∈ cs, c.holds leaf = true := by
  induction cs with
  | nil => simp [allHold]
  | cons c cs ih => simp [allHold, ih]

theorem anyHolds_iff {leaf : Field → Text → Bool} {cs : List Tree} :
    anyHolds leaf cs = true ↔ ∃ c ∈ cs, c.holds leaf = true := by
  induction cs with
  | nil => simp [anyHolds]
  | cons c cs ih => simp [anyHolds, ih]

/-- Whether a leaf matches a note with a given id. -/
def leafHolds (corpus : List Note) (mode : CaseMode) (id : Text) (field : Field) (value : Text) :
    Bool :=
  corpus.any fun note => note.id == id && note.matchesLeaf mode field value

/-- Whether a tree holds for the notes with a given id. -/
def holdsFor (corpus : List Note) (mode : CaseMode) (id : Text) (t : Tree) : Bool :=
  t.holds (leafHolds corpus mode id)

mutual

/-- Whether every leaf stands below an even number of negations, or every leaf below an odd
number of them. -/
def HasParity (even : Bool) : Tree → Prop
  | .leaf _ _ => even = true
  | .all cs => HaveParity even cs
  | .any cs => HaveParity even cs
  | .negation c => HasParity (!even) c
  | .group c => HasParity even c
  | .absent => True
  | .unknown _ => True

def HaveParity (even : Bool) : List Tree → Prop
  | [] => True
  | c :: cs => HasParity even c ∧ HaveParity even cs

end

theorem haveParity_iff {even : Bool} {cs : List Tree} :
    HaveParity even cs ↔ ∀ c ∈ cs, c.HasParity even := by
  induction cs with
  | nil => simp [HaveParity]
  | cons c cs ih => simp [HaveParity, ih]

end Tree

/-- The first note of each id, in order. -/
def Note.firsts : List Note → List Note
  | [] => []
  | note :: notes => note :: (firsts notes).filter fun other => !(other.id == note.id)

/-- The notes that a tree stands for. -/
def Tree.selects (corpus : List Note) (mode : CaseMode) (t : Tree) : List Note :=
  (Note.firsts corpus).filter fun note => t.holdsFor corpus mode note.id

end NoteQuery

import NoteQuery.Note.Basic
import NoteQuery.Order.Ascending
import NoteQuery.Text.Fold

/-!
# Snapshots of the corpus

A snapshot holds the notes that can be searched, the vocabulary of their tags and a version. The
vocabulary has each tag once, sorted by case folding and, where two foldings agree, by code points.
-/

set_option autoImplicit false

namespace NoteQuery

namespace Vocabulary

/-- The order of tags. -/
def before (s t : Text) : Bool :=
  let f := Text.fold s
  let g := Text.fold t
  Text.before f g || (f == g && Text.before s t)

/-- The distinct tags among some, in order. -/
def ofTags (tags : List Text) : List Text :=
  ascending before tags

end Vocabulary

/-- What can be searched at one time. -/
structure Snapshot where
  notes : List Note
  vocabulary : List Text
  /-- The number that tells the snapshot from those published before it. -/
  version : Int
  deriving DecidableEq, Repr

namespace Snapshot

def empty : Snapshot := ⟨[], [], 0⟩

def build (notes : List Note) (version : Int) : Snapshot :=
  ⟨notes, Vocabulary.ofTags (notes.flatMap (·.tags)), version⟩

end Snapshot

end NoteQuery

import NoteQuery.Note.Basic
import NoteQuery.Query.Tree
import NoteQuery.Text.Occurrence

/-!
# Which leaves match which notes
-/

set_option autoImplicit false

namespace NoteQuery

namespace Field

def parts : Field → List Note.Part
  | .tag => [.tag]
  | .title => [.title]
  | .body => [.body]
  | .anywhere => [.title, .body, .tag]

end Field

namespace Note

def tagsContain (mode : CaseMode) (value : Text) (tags : List Text) : Bool :=
  tags.any (Text.occursIn mode value)

def partContains (mode : CaseMode) (value : Text) (note : Note) : Part → Bool
  | .tag => tagsContain mode value note.tags
  | .title => Text.occursIn mode value note.title
  | .body => Text.occursIn mode value note.body

/-- Whether a leaf matches a note. -/
def matchesLeaf (mode : CaseMode) (field : Field) (value : Text) (note : Note) : Bool :=
  field.parts.any (partContains mode value note)

end Note

end NoteQuery

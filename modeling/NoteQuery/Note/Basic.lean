import NoteQuery.Note.Moment

/-!
# Notes

What the search engine knows of a note.
-/

set_option autoImplicit false

namespace NoteQuery

structure Note where
  id : Text
  title : Text
  body : Text
  /-- The tags, each once, in the order in which they were given. -/
  tags : List Text
  created : Option Moment
  /-- When the note was last changed. -/
  updated : Option Moment
  deriving DecidableEq, Repr

/-- A part of a note that a search can hit. -/
inductive Note.Part where
  | tag
  | title
  | body
  deriving DecidableEq, Repr

def Note.Part.name : Note.Part → Text
  | .tag => "tag".toList
  | .title => "title".toList
  | .body => "body".toList

end NoteQuery

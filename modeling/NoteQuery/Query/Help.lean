/-!
# The query syntax, for people
-/

set_option autoImplicit false

namespace NoteQuery

def syntaxHelp : List String := [
  "tag:value - notes with a tag containing value (tag:work)",
  "title:value - notes whose title contains value (title:meeting)",
  "body:value - notes whose body contains value (body:todo)",
  "Use quotes for exact phrases: \"meeting notes\" or title:\"weekly sync\"",
  "AND - both conditions must match (tag:work AND title:meeting)",
  "OR - either condition may match (tag:personal OR tag:family)",
  "NOT - exclude matching notes (NOT tag:archived)",
  "(...) - group conditions ((tag:work OR tag:personal) AND title:urgent)",
  "Multiple terms without operators are treated as AND",
  "Precedence: NOT binds tighter than AND, AND tighter than OR",
  "Search is case-insensitive by default",
  "Tag searches match partial tag names"]

end NoteQuery

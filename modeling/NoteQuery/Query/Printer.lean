import NoteQuery.Query.Lexer
import NoteQuery.Query.Tree

/-!
# The canonical text of a query

`Tree.render` writes a tree as a query. A value stands in quotes when it would otherwise be
divided or read as a keyword; quotes inside a value are not escaped, for the language has no
escapes.
-/

set_option autoImplicit false

namespace NoteQuery.Tree

/-- Whether a character forces a value into quotes. -/
def forcesQuotes (c : Char) : Bool :=
  Text.isBlank c || Text.isDelimiter c || c == ':'

/-- Whether a value has to stand in quotes. -/
def needsQuotes (value : Text) : Bool :=
  value.isEmpty || value.any forcesQuotes || (Token.keyword? value).isSome

/-- The value of a leaf as a query writes it. -/
def renderValue (value : Text) : Text :=
  if needsQuotes value then '"' :: value ++ ['"'] else value

mutual

/-- The canonical text of a tree; nodes of an unknown kind have none. -/
def render : Tree → Text
  | .leaf f v => f.marker ++ renderValue v
  | .all cs => Text.join " AND ".toList (renderList cs)
  | .any cs => Text.join " OR ".toList (renderList cs)
  | .negation c => "NOT ".toList ++ render c
  | .group c => '(' :: render c ++ [')']
  | .absent => []
  | .unknown _ => []

def renderList : List Tree → List Text
  | [] => []
  | c :: cs => render c :: renderList cs

end

end NoteQuery.Tree

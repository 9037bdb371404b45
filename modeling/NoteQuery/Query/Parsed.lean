import NoteQuery.Query.Lexer
import NoteQuery.Query.Parser
import NoteQuery.Query.Printer

/-!
# Parsed queries

`Parsed.ofText` reads the text of a query. Nothing but white space is a valid query that asks for
nothing; every other text is either a tree or rejected with an error.
-/

set_option autoImplicit false

namespace NoteQuery

/-- What the text of a query means. -/
inductive Parsed where
  | empty
  | query (root : Tree)
  | rejected (error : QueryError)
  deriving DecidableEq

namespace Parsed

def ofText (text : Text) : Parsed :=
  if Text.allBlank text then .empty
  else
    match Token.scan text with
    | .error e => .rejected (.lexical e)
    | .ok tokens =>
      match Tree.ofTokens? tokens with
      | .error e => .rejected (.syntactic e)
      | .ok none => .empty
      | .ok (some root) => .query root

/-- Whether the text was accepted. -/
def isValid : Parsed → Bool
  | .rejected _ => false
  | _ => true

def root? : Parsed → Option Tree
  | .query root => some root
  | _ => none

def error? : Parsed → Option QueryError
  | .rejected e => some e
  | _ => none

def canonical (p : Parsed) : Text :=
  match p with
  | .query root => root.render
  | _ => []

end Parsed

end NoteQuery

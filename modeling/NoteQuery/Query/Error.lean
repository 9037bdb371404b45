import NoteQuery.Query.Token
import NoteQuery.Text.Quoted

/-!
# Errors in queries

What can be wrong with a query, as causes with the offset at which they are noticed. A lexical
error is one of the text, a syntax error one of the order of tokens. `QueryError.message` holds
the wording.
-/

set_option autoImplicit false

namespace NoteQuery

def describeAt (message : Text) (position : Option Int) : Text :=
  match position with
  | none => message
  | some p => message ++ " (at position ".toList ++ Text.ofInt p ++ ")".toList

/-- What can be wrong with the text of a query. -/
inductive LexCause where
  | strayCharacter (c : Char)
  | unterminatedPhrase
  /-- A field marker has no value right after its colon. -/
  | missingValue (word : Text)
  deriving DecidableEq, Repr

def LexCause.message : LexCause → Text
  | .strayCharacter c => "Invalid character ".toList ++ Text.shown [c]
  | .unterminatedPhrase => "Unterminated phrase".toList
  | .missingValue word => "Missing value after '".toList ++ word ++ "'".toList

/-- A lexical error with its offset. -/
structure LexError where
  cause : LexCause
  position : Nat
  deriving DecidableEq, Repr

/-- The same error `n` characters further on. -/
def LexError.shift (n : Nat) (e : LexError) : LexError :=
  { e with position := e.position + n }

/-- The two operators that join operands. -/
inductive Connective where
  | and
  | or
  deriving DecidableEq, Repr

def Connective.keyword : Connective → Text
  | .and => "AND".toList
  | .or => "OR".toList

/-- What can be wrong with the order of tokens. -/
inductive ParseCause where
  | missingLeft (connective : Connective)
  | missingRight (connective : Connective)
  | missingOperand
  | nestedTooDeeply
  | emptyGroup
  | unmatchedClosing
  | unmatchedOpening
  | unknownField (name : Text)
  | missingValue (label : Text)
  | emptyPhrase
  | unexpectedEnd
  /-- A keyword stands where an operand has to begin. -/
  | unexpectedOperator (kind : Token.Kind)
  /-- The tokens stop without a mark for the end. -/
  | unended
  deriving DecidableEq, Repr

/-- The wording of a syntax error. -/
def ParseCause.message : ParseCause → Text
  | .missingLeft c => c.keyword ++ " must have a left operand".toList
  | .missingRight c => c.keyword ++ " must have a right operand".toList
  | .missingOperand => "NOT operator must have an operand".toList
  | .nestedTooDeeply => "Query nested too deeply".toList
  | .emptyGroup => "Empty group".toList
  | .unmatchedClosing => "Unmatched closing parenthesis".toList
  | .unmatchedOpening => "Unmatched opening parenthesis".toList
  | .unknownField name => "Unknown field '".toList ++ name ++ ":'".toList
  | .missingValue label => "Missing value after '".toList ++ label ++ "'".toList
  | .emptyPhrase => "Empty phrase".toList
  | .unexpectedEnd => "Unexpected end of query".toList
  | .unexpectedOperator kind => "Unexpected ".toList ++ kind.name.toList ++ " operator".toList
  | .unended => "list index out of range".toList

/-- A syntax error with its offset. -/
structure ParseError where
  cause : ParseCause
  position : Nat
  deriving DecidableEq, Repr

inductive QueryError where
  /-- The text cannot be divided into tokens. -/
  | lexical (error : LexError)
  | syntactic (error : ParseError)
  deriving DecidableEq, Repr

namespace QueryError

def text : QueryError → Text
  | .lexical e => e.cause.message
  | .syntactic e => e.cause.message

def position : QueryError → Nat
  | .lexical e => e.position
  | .syntactic e => e.position

def message (e : QueryError) : Text :=
  describeAt e.text (some e.position)

def kindName : QueryError → Text
  | .lexical _ => "LexError".toList
  | .syntactic _ => "ParseError".toList

end QueryError

end NoteQuery

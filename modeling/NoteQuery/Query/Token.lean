import NoteQuery.Text.Basic

/-!
# Tokens of the query language

A query is a sequence of tokens: field markers such as `tag:`, the keywords AND, OR and NOT,
parentheses, quoted phrases and bare terms. A last token marks the end of the text.
-/

set_option autoImplicit false

namespace NoteQuery

namespace Token

/-- The kinds of token. -/
inductive Kind where
  /-- A field marker; its value is the name in lower case. -/
  | field
  | and
  | or
  | not
  | opening
  | closing
  /-- A quoted phrase; its value is what stands between the quotes. -/
  | phrase
  | term
  | done
  deriving DecidableEq, Repr

namespace Kind

def name : Kind → String
  | .field => "FIELD"
  | .and => "AND"
  | .or => "OR"
  | .not => "NOT"
  | .opening => "LPAREN"
  | .closing => "RPAREN"
  | .phrase => "PHRASE"
  | .term => "TERM"
  | .done => "EOF"

def all : List Kind :=
  [.field, .and, .or, .not, .opening, .closing, .phrase, .term, .done]

def ofName? (name : String) : Option Kind :=
  all.find? (·.name == name)

def startsOperand : Kind → Bool
  | .not | .opening | .field | .term | .phrase => true
  | _ => false

def isValue : Kind → Bool
  | .term | .phrase => true
  | _ => false

def endsOperand : Kind → Bool
  | .term | .phrase | .closing => true
  | _ => false

end Kind

end Token

/-- A token with its value and its offset in the query. -/
structure Token where
  kind : Token.Kind
  value : Text
  position : Nat
  deriving DecidableEq, Repr

/-- The same token `n` characters further on. -/
def Token.shift (n : Nat) (t : Token) : Token :=
  { t with position := t.position + n }

end NoteQuery

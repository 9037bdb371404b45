import NoteQuery.Query.Error
import NoteQuery.Query.Grammar

/-!
# From tokens to a tree

`Tree.ofTokens?` finds the tree that `Grammar.Derives` gives to a list of tokens, or says why there
is none.

The parser reads one token at a time and keeps what is still open: a `Scope` for the whole query
and one for every group around the next token. A scope holds the operands that it has completed
and the number of negations that wait for theirs. `Parser.step` says what one token does to the
state, so that what a token list means is the fold of `step` over it, and the state after a prefix
says everything about how the prefix can go on.
-/

set_option autoImplicit false

namespace NoteQuery

namespace Parser

/-- The operands of one group, or of the whole query, as far as they are complete. -/
structure Scope where
  /-- The completed operands of OR, last first. -/
  alternatives : List Tree
  /-- The completed operands of AND in the alternative under way, last first. -/
  factors : List Tree
  negations : Nat
  deriving DecidableEq

def Scope.empty : Scope := ⟨[], [], 0⟩

namespace Scope

/-- The scope with one more completed operand, under the negations that waited for it. -/
def complete (s : Scope) (operand : Tree) : Scope :=
  { s with factors := Tree.negations s.negations operand :: s.factors, negations := 0 }

def alternative (s : Scope) : Tree :=
  Tree.allOf s.factors.reverse

/-- The scope after an OR: the alternative under way is complete. -/
def branch (s : Scope) : Scope :=
  { s with alternatives := s.alternative :: s.alternatives, factors := [] }

def tree (s : Scope) : Tree :=
  Tree.anyOf (s.alternative :: s.alternatives).reverse

end Scope

/-- What came just before the next token. -/
inductive Situation where
  | start
  | opened (position : Nat)
  | negated (position : Nat)
  | joined (connective : Connective) (position : Nat)
  | marked (field : Field) (position : Nat)
  | operand
  deriving DecidableEq

/-- What is open between two tokens. -/
structure State where
  /-- The scopes around the innermost group, inside out, each with the offset of the parenthesis
  that was opened in it. -/
  outer : List (Nat × Scope)
  scope : Scope
  /-- What came just before the next token. -/
  after : Situation
  deriving DecidableEq

def State.initial : State := ⟨[], .empty, .start⟩

namespace State

/-- The number of groups and negations that are open. -/
def depth (s : State) : Nat :=
  s.outer.foldl (fun n o => n + 1 + o.2.negations) s.scope.negations

/-- The state after an operand. -/
def complete (s : State) (operand : Tree) : State :=
  { s with scope := s.scope.complete operand, after := .operand }

end State

/-- What a token leads to. -/
inductive Progress where
  | reading (state : State)
  /-- The tokens are complete; a query without tokens has no tree. -/
  | done (root : Option Tree)
  deriving DecidableEq

def leaf (s : State) (field : Field) (t : Token) : Except ParseError Progress :=
  if t.value.isEmpty then .error ⟨.emptyPhrase, t.position⟩
  else .ok (.reading (s.complete (.leaf field t.value)))

/-- A token where an operand has to begin. -/
def begin (s : State) (t : Token) : Except ParseError Progress :=
  match t.kind with
  | .not =>
    .ok (.reading { s with
      scope := { s.scope with negations := s.scope.negations + 1 }
      after := .negated t.position })
  | .opening => .ok (.reading ⟨(t.position, s.scope) :: s.outer, .empty, .opened t.position⟩)
  | .field =>
    match Field.ofName? t.value with
    | some f => .ok (.reading { s with after := .marked f t.position })
    | none => .error ⟨.unknownField t.value, t.position⟩
  | .term | .phrase => leaf s .anywhere t
  | .closing => .error ⟨.unmatchedClosing, t.position⟩
  | .done => .error ⟨.unexpectedEnd, t.position⟩
  | .and | .or => .error ⟨.unexpectedOperator t.kind, t.position⟩

/-- A token where a whole disjunction has to begin: no connective can come first. -/
def beginScope (s : State) (t : Token) : Except ParseError Progress :=
  match t.kind with
  | .or => .error ⟨.missingLeft .or, t.position⟩
  | .and => .error ⟨.missingLeft .and, t.position⟩
  | _ => begin s t

/-- What is refused where the group or the negation opened at `position` is one too many. -/
def guardDepth (s : State) (position : Nat) (next : Except ParseError Progress) :
    Except ParseError Progress :=
  if Grammar.maxNesting < s.depth then .error ⟨.nestedTooDeeply, position⟩ else next

/-- A token after a complete operand. -/
def afterOperand (s : State) (t : Token) : Except ParseError Progress :=
  match t.kind with
  | .and => .ok (.reading { s with after := .joined .and t.position })
  | .or => .ok (.reading { s with scope := s.scope.branch, after := .joined .or t.position })
  | .closing =>
    match s.outer with
    | [] => .error ⟨.unmatchedClosing, t.position⟩
    | (_, scope) :: outer => .ok (.reading
        (State.complete ⟨outer, scope, .operand⟩ (.group s.scope.tree)))
  | .done =>
    match s.outer with
    | [] => .ok (.done (some s.scope.tree))
    | (position, _) :: _ => .error ⟨.unmatchedOpening, position⟩
  | .not | .opening | .field | .term | .phrase => begin s t

/-- What one token does. -/
def step (s : State) (t : Token) : Except ParseError Progress :=
  match s.after with
  | .start => if t.kind = .done then .ok (.done none) else beginScope s t
  | .opened position =>
    if t.kind = .closing then .error ⟨.emptyGroup, position⟩
    else guardDepth s position (beginScope s t)
  | .negated position =>
    if t.kind.startsOperand then guardDepth s position (begin s t)
    else .error ⟨.missingOperand, position⟩
  | .joined connective position =>
    if t.kind.startsOperand then begin s t else .error ⟨.missingRight connective, position⟩
  | .marked field position =>
    if t.kind.isValue then leaf s field t
    else .error ⟨.missingValue field.marker, position⟩
  | .operand => afterOperand s t

/-- What a list of tokens leads to from a given state. Tokens after the mark for the end have no
influence; where there is no such mark, the list has run out. -/
def run (s : State) : List Token → Except ParseError (Option Tree)
  | [] => .error ⟨.unended, 0⟩
  | t :: ts =>
    match step s t with
    | .error e => .error e
    | .ok (.done root) => .ok root
    | .ok (.reading next) => run next ts

end Parser

/-- The tree of a list of tokens, or nothing if there are none before the mark for the end. -/
def Tree.ofTokens? (tokens : List Token) : Except ParseError (Option Tree) :=
  Parser.run .initial tokens

end NoteQuery

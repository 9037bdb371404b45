import NoteQuery.Query.Tree

/-!
# The grammar of queries

From the loosest to the tightest operator:

    disjunction := conjunction (OR conjunction)*
    conjunction := operand (AND? operand)*
    operand     := NOT operand | '(' disjunction ')' | field marker value | value

Each of the three relations pairs the tokens of a phrase of the language with what the phrase
means: an operand with its tree, a conjunction with the trees of its factors, a disjunction with
the trees of its alternatives. `room` is the number of groups and negations that may still be
opened around any point of the phrase. `Derives` is the relation for a whole query.
-/

set_option autoImplicit false

namespace NoteQuery.Grammar

/-- How many groups and negations may be open at once. -/
def maxNesting : Nat := 100

mutual

/-- The tokens of an operand and its tree. -/
inductive Operand : (room : Nat) → List Token → Tree → Prop
  /-- A word or a phrase looks anywhere. -/
  | value {room : Nat} {v : Token} :
      v.kind.isValue = true → v.value ≠ [] → Operand room [v] (.leaf .anywhere v.value)
  /-- A field marker and a word or a phrase look in the field. -/
  | field {room : Nat} {m v : Token} {f : Field} :
      m.kind = .field → Field.ofName? m.value = some f → v.kind.isValue = true → v.value ≠ [] →
        Operand room [m, v] (.leaf f v.value)
  /-- NOT negates an operand. -/
  | negation {room : Nat} {n : Token} {ts : List Token} {t : Tree} :
      n.kind = .not → Operand room ts t → Operand (room + 1) (n :: ts) (.negation t)
  /-- A disjunction in parentheses is an operand. -/
  | group {room : Nat} {o c : Token} {ts : List Token} {alternatives : List Tree} :
      o.kind = .opening → Disjunction room ts alternatives → c.kind = .closing →
        Operand (room + 1) (o :: ts ++ [c]) (.group (.anyOf alternatives))

/-- The tokens of a conjunction and the trees of its factors. -/
inductive Conjunction : (room : Nat) → List Token → List Tree → Prop
  /-- An operand alone is a conjunction. -/
  | one {room : Nat} {ts : List Token} {t : Tree} :
      Operand room ts t → Conjunction room ts [t]
  /-- Operands side by side are factors. -/
  | beside {room : Nat} {ts us : List Token} {t : Tree} {factors : List Tree} :
      Operand room ts t → Conjunction room us factors → Conjunction room (ts ++ us) (t :: factors)
  /-- Operands with an AND between them are factors. -/
  | joined {room : Nat} {ts us : List Token} {a : Token} {t : Tree} {factors : List Tree} :
      Operand room ts t → a.kind = .and → Conjunction room us factors →
        Conjunction room (ts ++ a :: us) (t :: factors)

/-- The tokens of a disjunction and the trees of its alternatives. -/
inductive Disjunction : (room : Nat) → List Token → List Tree → Prop
  /-- A conjunction alone is a disjunction. -/
  | one {room : Nat} {ts : List Token} {factors : List Tree} :
      Conjunction room ts factors → Disjunction room ts [.allOf factors]
  /-- Conjunctions with an OR between them are alternatives. -/
  | joined {room : Nat} {ts us : List Token} {o : Token} {factors alternatives : List Tree} :
      Conjunction room ts factors → o.kind = .or → Disjunction room us alternatives →
        Disjunction room (ts ++ o :: us) (.allOf factors :: alternatives)

end

/-- The tokens of a query, without a mark for the end, and its tree. -/
def Derives (ts : List Token) (t : Tree) : Prop :=
  ∃ alternatives, Disjunction maxNesting ts alternatives ∧ t = .anyOf alternatives

end NoteQuery.Grammar

import NoteQuery.Query.Error
import NoteQuery.Text.Upper

/-!
# From text to tokens

`Token.scan` divides the text of a query into tokens. White space separates, parentheses stand for
themselves, a quote opens a phrase that runs to the next quote, and every other run of word
characters is a bare word. A bare word that begins with letters and a colon is a field marker; its
value is the rest of the word or, where nothing is left, the phrase that follows at once.
-/

set_option autoImplicit false

namespace NoteQuery.Token

def keyword? (word : Text) : Option Kind :=
  let u := Text.upper word
  if u = "AND".toList then some .and
  else if u = "OR".toList then some .or
  else if u = "NOT".toList then some .not
  else none

/-- The field name in lower case and the value of a word that begins with letters and a colon. -/
def splitField? (word : Text) : Option (Text × Text) :=
  let name := word.takeWhile Text.isLetter
  match word.dropWhile Text.isLetter with
  | ':' :: value => if name.isEmpty then none else some (name.map Char.toLower, value)
  | _ => none

/-- The tokens of a bare word at an offset, given the text after it. -/
def ofWord (position : Nat) (word rest : Text) : Except LexError (List Token) :=
  match splitField? word with
  | some (name, value) =>
    if !value.isEmpty then
      .ok [⟨.field, name, position⟩, ⟨.term, value, position + name.length + 1⟩]
    else if rest.head? = some '"' then .ok [⟨.field, name, position⟩]
    else .error ⟨.missingValue word, position⟩
  | none =>
    match keyword? word with
    | some kind => .ok [⟨kind, word, position⟩]
    | none => .ok [⟨.term, word, position⟩]

/-- The tokens of a text whose first character has a given offset. -/
def scanFrom (position : Nat) (t : Text) : Except LexError (List Token) :=
  match t with
  | [] => .ok [⟨.done, [], position⟩]
  | c :: cs =>
    if Text.isBlank c then scanFrom (position + 1) cs
    else if Text.isStray c then .error ⟨.strayCharacter c, position⟩
    else if c = '(' then do
      return ⟨.opening, [c], position⟩ :: (← scanFrom (position + 1) cs)
    else if c = ')' then do
      return ⟨.closing, [c], position⟩ :: (← scanFrom (position + 1) cs)
    else if c = '"' then
      let phrase := cs.takeWhile (· != '"')
      match h : cs.dropWhile (· != '"') with
      | [] => .error ⟨.unterminatedPhrase, position⟩
      | _ :: rest => do
        have : rest.length ≤ cs.length := by
          have := (List.dropWhile_suffix (· != '"') (l := cs)).length_le
          simp only [h, List.length_cons] at this
          omega
        return ⟨.phrase, phrase, position⟩ :: (← scanFrom (position + phrase.length + 2) rest)
    else
      let word := c :: cs.takeWhile Text.isWord
      let rest := cs.dropWhile Text.isWord
      have : (cs.dropWhile Text.isWord).length ≤ cs.length :=
        (List.dropWhile_suffix Text.isWord (l := cs)).length_le
      do
        let tokens ← ofWord position word rest
        return tokens ++ (← scanFrom (position + word.length) rest)
termination_by t.length

/-- The tokens of a query. -/
def scan (query : Text) : Except LexError (List Token) :=
  scanFrom 0 query

end NoteQuery.Token

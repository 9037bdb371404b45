import NoteQuery.Note.Snapshot
import NoteQuery.Query.Lexer
import NoteQuery.Query.Tree
import NoteQuery.Text.Lower

/-!
# Completing a query

A partial query is cut behind its last blank or parenthesis: in front is what is complete, behind
it the fragment under the cursor. Behind a complete operand the keywords are offered, elsewhere
the field markers; behind `tag:` the tags that begin with the fragment. Nothing is offered inside
an open phrase, or where what is complete cannot be divided into tokens.
-/

set_option autoImplicit false

namespace NoteQuery.Completion

def markers : List Text :=
  Field.named.map Field.marker

def keywords : List Text :=
  ["AND ".toList, "OR ".toList, "NOT ".toList]

def isBreak (c : Char) : Bool :=
  Text.isBlank c || Text.isParen c

/-- A partial query up to its last break. -/
def completed (query : Text) : Text :=
  (query.reverse.dropWhile (!isBreak ·)).reverse

/-- A partial query behind its last break. -/
def fragment (query : Text) : Text :=
  (query.reverse.takeWhile (!isBreak ·)).reverse

/-- Whether a text ends with a complete operand, if it can be divided into tokens. -/
def followsOperand? (text : Text) : Option Bool :=
  match Token.scan text with
  | .error _ => none
  | .ok tokens =>
    match tokens.dropLast.getLast? with
    | some t => some t.kind.endsOperand
    | none => some false

/-- A tag as a value behind a field marker: in quotes where it would otherwise be divided. -/
def renderTag (tag : Text) : Text :=
  if tag.any fun c => Text.isBlank c || Text.isDelimiter c then '"' :: tag ++ ['"'] else tag

/-- The distinct tags that begin with a text in any case, in order. No tag is empty. -/
def tagsFor (start : Text) (tags : List Text) : List Text :=
  let folded := Text.fold start
  Vocabulary.ofTags (tags.filter fun tag => !tag.isEmpty && folded.isPrefixOf (Text.fold tag))

/-- The first entries of a list, all of them without a limit; a limit below zero leaves out that
many entries at the end. -/
def upTo {α : Type} (limit : Option Int) (xs : List α) : List α :=
  match limit with
  | none => xs
  | some n => xs.take (Text.position xs.length n)

/-- What can replace the fragment of a partial query, most useful first. -/
def proposals (query : Text) (tags : List Text) : List Text :=
  if query.count '"' % 2 = 1 then []
  else
    match followsOperand? (completed query) with
    | none => []
    | some afterOperand =>
      let piece := fragment query
      if piece.isEmpty then if afterOperand then keywords else markers
      else
        match Token.splitField? piece with
        | some (name, value) =>
          if name = Field.tag.name then
            (tagsFor value tags).map fun tag =>
              piece.take (piece.length - value.length) ++ renderTag tag
          else []
        | none =>
          let lower := Text.lower piece
          let upper := Text.upper piece
          markers.filter lower.isPrefixOf ++
            if afterOperand then keywords.filter upper.isPrefixOf else []

def suggest (query : Text) (tags : List Text) (limit : Option Int) : List Text :=
  upTo limit (proposals query tags)

end NoteQuery.Completion

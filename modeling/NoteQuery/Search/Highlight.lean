import NoteQuery.Order.Ascending
import NoteQuery.Query.Checked
import NoteQuery.Search.Excerpt
import NoteQuery.Search.Matching

/-!
# Why a note was found

For every leaf that speaks for a hit and every part of the note in which it looks, the highlights
tell where the value occurs, together with an excerpt: all tags in one line, the title as it is,
or a window of the body around the first occurrence. Findings with the same part and the same
excerpt are one highlight.
-/

set_option autoImplicit false

namespace NoteQuery

/-- Where a part of a note was hit. -/
structure Highlight where
  part : Note.Part
  excerpt : Text
  /-- The hits: in the title, in the whole body, or in the line of tags. -/
  spans : List Span
  deriving DecidableEq, Repr

namespace Highlight

def tagSeparator : Text := ", ".toList

def tagLine (tags : List Text) : Text :=
  Text.join tagSeparator tags

/-- The hits in tags of which the first stands at a given offset in the line of tags. -/
def tagSpans (mode : CaseMode) (value : Text) (offset : Nat) : List Text → List Span
  | [] => []
  | tag :: tags =>
    (Text.occurrences mode value tag).map (Span.shift offset) ++
      tagSpans mode value (offset + tag.length + tagSeparator.length) tags

/-- How highlights are made. -/
structure Rules where
  mode : CaseMode
  excerptLength : Int
  includeBody : Bool

def find? (rules : Rules) (note : Note) (value : Text) (part : Note.Part) : Option Highlight :=
  if !note.partContains rules.mode value part then none
  else
    match part with
    | .tag => some ⟨.tag, tagLine note.tags, tagSpans rules.mode value 0 note.tags⟩
    | .title => some ⟨.title, note.title, Text.occurrences rules.mode value note.title⟩
    | .body =>
      if !rules.includeBody then none
      else
        let spans := Text.occurrences rules.mode value note.body
        let first := spans.head?.getD ⟨0, 0⟩
        some ⟨.body, Excerpt.build note.body first.start first.stop rules.excerptLength, spans⟩

def findings (rules : Rules) (note : Note) (tree : Tree) : List Highlight :=
  tree.leaves.flatMap fun (field, value) => field.parts.filterMap (find? rules note value)

def merge (h : Highlight) (spans : List Span) : Highlight :=
  { h with spans := spans.foldl (fun acc s => insertAscending Span.before s acc) h.spans }

/-- A finding added to the highlights: to the one with the same part and excerpt if there is one,
else at the end. -/
def add (finding : Highlight) : List Highlight → List Highlight
  | [] => [merge ⟨finding.part, finding.excerpt, []⟩ finding.spans]
  | h :: hs =>
    if h.part = finding.part ∧ h.excerpt = finding.excerpt then merge h finding.spans :: hs
    else h :: add finding hs

/-- The highlights of a note for a tree. -/
def explain (rules : Rules) (note : Note) (root : Option Tree) : List Highlight :=
  match root with
  | none => []
  | some tree => (findings rules note tree).foldl (fun acc h => add h acc) []

/-- The highlights of a note for a tree from a caller, if the leaves that speak for a hit can be
reached. -/
def explain? (rules : Rules) (note : Note) : Option Tree → Except TreeError (List Highlight)
  | none => .ok (explain rules note none)
  | some tree => tree.walk? false fun t => explain rules note (some t)

end Highlight

end NoteQuery

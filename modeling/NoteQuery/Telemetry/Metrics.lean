import NoteQuery.Order.Ascending
import NoteQuery.Telemetry.Tally
import NoteQuery.Text.Numeral

/-!
# Metrics of searches

For every engine name the metrics count the searches by how they ended, the rejected queries by
the kind of their error and the searches whose time was taken, and hold the size of the corpus.
`Metrics.lines` writes them down, one sample to a line.
-/

set_option autoImplicit false

namespace NoteQuery

/-- How a search ended. -/
inductive SearchStatus where
  | completed
  | empty
  | invalid
  | cancelled
  deriving DecidableEq, Repr

def SearchStatus.name : SearchStatus → Text
  | .completed => "ok".toList
  | .empty => "empty".toList
  | .invalid => "invalid".toList
  | .cancelled => "cancelled".toList

/-- What is measured. -/
structure Metrics where
  timed : Tally Text
  /-- The searches, by engine and by how they ended. -/
  requests : Tally (Text × SearchStatus)
  /-- The rejected queries, by engine and by the kind of their error. -/
  queryErrors : Tally (Text × Text)
  /-- The number of notes in the corpus that was last published, by engine. -/
  corpusNotes : List (Text × Nat)
  deriving DecidableEq, Repr

namespace Metrics

/-- Nothing was measured. -/
def empty : Metrics := ⟨.empty, .empty, .empty, []⟩

/-- The metrics after a search that ended in a given way, for a rejected query with the kind of
its error. -/
def search (engine : Text) (status : SearchStatus) (errorKind : Option Text) (m : Metrics) :
    Metrics :=
  { m with
    timed := m.timed.add engine
    requests := m.requests.add (engine, status)
    queryErrors :=
      match errorKind with
      | some kind => m.queryErrors.add (engine, kind)
      | none => m.queryErrors }

def publish (engine : Text) (notes : Nat) (m : Metrics) : Metrics :=
  { m with corpusNotes := setMember engine notes m.corpusNotes }

/-! ## Samples as text -/

def escapeLabel (c : Char) : Text :=
  if c == '\\' then ['\\', '\\']
  else if c == '\n' then ['\\', 'n']
  else if c == '"' then ['\\', '"']
  else [c]

def label (name : String) (value : Text) : Text :=
  name.toList ++ "=\"".toList ++ value.flatMap escapeLabel ++ ['"']

/-- A count as a sample has it: with a digit after the point and, from a million on, with an
exponent. -/
def sampleNumber (n : Nat) : Text :=
  let digits := Text.ofNat n
  if digits.length < 7 then digits ++ ".0".toList
  else
    let fraction := ((digits.drop 1).reverse.dropWhile (· == '0')).reverse
    digits.take 1 ++ (if fraction.isEmpty then [] else '.' :: fraction) ++ "e+0".toList ++
      Text.ofNat (digits.length - 1)

def sample (name : String) (labels : List Text) (n : Nat) : Text :=
  name.toList ++ '\x7b' :: Text.join [','] labels ++ "\x7d ".toList ++ sampleNumber n

/-- All samples, in order. -/
def lines (m : Metrics) : List Text :=
  let timed := m.timed.counts.map fun c =>
    sample "note_search_latency_seconds_count" [label "engine" c.1] c.2
  let requests := m.requests.counts.map fun c =>
    sample "note_search_requests_total"
      [label "engine" c.1.1, label "status" c.1.2.name] c.2
  let queryErrors := m.queryErrors.counts.map fun c =>
    sample "note_search_query_errors_total"
      [label "engine" c.1.1, label "error_type" c.1.2] c.2
  let corpusNotes := m.corpusNotes.map fun c =>
    sample "note_search_corpus_notes" [label "engine" c.1] c.2
  ascending Text.before (timed ++ requests ++ queryErrors ++ corpusNotes)

end Metrics

end NoteQuery

import NoteQuery.Query.Completion
import NoteQuery.Query.Parsed
import NoteQuery.Search.Evaluation
import NoteQuery.Search.Result
import NoteQuery.Settings.Basic
import NoteQuery.Telemetry.Event
import NoteQuery.Telemetry.Metrics

/-!
# The search engine

An engine holds one snapshot of the corpus and answers queries about it. A search first reads the
query, then evaluates it, and then tells of the notes found, in the order of the corpus and up to
the limit of its options, where they were hit. Every note that is found fits equally well.
-/

set_option autoImplicit false

namespace NoteQuery

/-- A search engine. -/
structure Engine where
  name : Text
  settings : Settings
  snapshot : Snapshot
  deriving DecidableEq, Repr

/-- The answer to a query. -/
structure Answer where
  query : Text
  root : Tree
  includeBody : Bool
  found : Nat
  hits : List (Note × List Highlight)
  deriving DecidableEq

namespace Answer

/-- How well a note fits a query that it matches. -/
def score : Float := 1.0

/-- The results that an answer tells after a search of `elapsed` milliseconds. -/
def results (a : Answer) (elapsed : Float) : List SearchResult :=
  a.hits.map fun (note, highlights) =>
    { noteId := note.id
      title := note.title
      body := if a.includeBody then some note.body else none
      tags := note.tags
      score := score
      matched := highlights.map Highlight.toMatch
      queryInfo := ⟨a.query, a.root.render, elapsed⟩ }

end Answer

/-- What a search comes to. -/
inductive SearchOutcome where
  | invalid (error : QueryError)
  | empty
  | cancelled (root : Tree) (warnings : List Evaluation.Warning)
  | completed (answer : Answer) (warnings : List Evaluation.Warning)

namespace SearchOutcome

def status : SearchOutcome → SearchStatus
  | .invalid _ => .invalid
  | .empty => .empty
  | .cancelled _ _ => .cancelled
  | .completed _ _ => .completed

def errorKind? : SearchOutcome → Option Text
  | .invalid e => some e.kindName
  | _ => none

def answer? : SearchOutcome → Option Answer
  | .completed a _ => some a
  | _ => none

/-- What is logged about a search for a query among `total` notes. -/
def events (query : Text) (total : Nat) : SearchOutcome → List Event
  | .invalid e => [.rejected e, .invalidSearch query e]
  | .empty => []
  | .cancelled _ ws => ws.map .remark ++ [.cancelledSearch query]
  | .completed a ws => ws.map .remark ++ [.search a.found total a.hits.length]

def attributes : SearchOutcome → List (Text × Datum)
  | .invalid _ | .empty => []
  | .cancelled root _ => [("note_search.ast_nodes".toList, .int root.size)]
  | .completed a _ => [("note_search.ast_nodes".toList, .int a.root.size),
      ("note_search.match_count".toList, .int a.found),
      ("note_search.result_count".toList, .int a.hits.length)]

end SearchOutcome

namespace Engine

/-- An engine with an empty corpus; without a name of its own it has that of its settings. -/
def create (settings : Settings) (name : Option Text) : Engine :=
  let own := name.getD []
  ⟨if own.isEmpty then settings.engineName else own, settings, .empty⟩

def publish (notes : List Note) (e : Engine) : Engine :=
  { e with snapshot := .build notes (e.snapshot.version + 1) }

/-- The size of the corpus. -/
def stats (e : Engine) : Stats :=
  ⟨e.snapshot.notes.length, e.snapshot.vocabulary.length, e.snapshot.version⟩

/-- The options of a search whose caller gives none. -/
def defaultOptions (e : Engine) : Options :=
  ⟨e.settings.maxResults, true, e.settings.caseSensitive⟩

def rules (e : Engine) (options : Options) : Highlight.Rules :=
  ⟨.ofSensitive options.caseSensitive, e.settings.excerptLength, options.includeBody⟩

/-- The search for a tree; `allowance` is the number of checks for cancellation that pass. -/
def find (e : Engine) (query : Text) (root : Tree) (options : Options) (allowance : Option Nat) :
    SearchOutcome :=
  let outcome := Evaluation.evaluate
    ⟨e.snapshot.notes, .ofSensitive options.caseSensitive, allowance⟩ (some root)
  match outcome.notes? with
  | none => .cancelled root outcome.trace.warnings
  | some found =>
    let told := Completion.upTo (some options.maxResults) found
    .completed
      { query := query
        root := root
        includeBody := options.includeBody
        found := found.length
        hits := told.map fun n => (n, Highlight.explain (e.rules options) n (some root)) }
      outcome.trace.warnings

def search (e : Engine) (query : Text) (options : Options) (allowance : Option Nat) :
    SearchOutcome :=
  match Parsed.ofText query with
  | .rejected error => .invalid error
  | .empty => .empty
  | .query root => e.find query root options allowance

def validate (query : Text) : Verdict :=
  let parsed := Parsed.ofText query
  ⟨parsed.isValid, parsed.error?.map QueryError.message⟩

def suggest (e : Engine) (query : Text) : List Text :=
  Completion.suggest query e.snapshot.vocabulary (some e.settings.suggestionLimit)

end Engine

end NoteQuery

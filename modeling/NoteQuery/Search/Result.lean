import NoteQuery.Json.Basic
import NoteQuery.Note.Snapshot
import NoteQuery.Search.Highlight

/-!
# What a search is asked and what it answers

The options of one search, the results it gives, and the smaller records that go with them.
-/

set_option autoImplicit false

namespace NoteQuery

/-- The options of one search. -/
structure Options where
  maxResults : Int
  includeBody : Bool
  caseSensitive : Bool
  deriving DecidableEq, Repr

/-- A hit as a result tells it. -/
structure Match where
  part : Note.Part
  excerpt : Text
  /-- The first offset of each hit and the offset behind it. -/
  indices : List (Int × Int)
  deriving DecidableEq, Repr

/-- The query that a result answers. -/
structure QueryInfo where
  asked : Text
  parsed : Text
  /-- How long the search took, in milliseconds. -/
  elapsed : Float

/-- A note that was found. -/
structure SearchResult where
  noteId : Text
  title : Text
  body : Option Text
  tags : List Text
  score : Float
  matched : List Match
  queryInfo : QueryInfo

/-- Whether a query is one, and what is wrong with it. -/
structure Verdict where
  isValid : Bool
  error : Option Text
  deriving DecidableEq, Repr

/-- The size of a corpus. -/
structure Stats where
  noteCount : Int
  tagCount : Int
  version : Int
  deriving DecidableEq, Repr

def Highlight.toMatch (h : Highlight) : Match :=
  ⟨h.part, h.excerpt, h.spans.map fun s => (s.start, s.stop)⟩

namespace Json

def ofMoment? (m : Option Moment) : Json :=
  .ofOption (fun m => .str m.render) m

def ofTexts (ts : List Text) : Json :=
  .arr (ts.map .str)

def ofNote (n : Note) : Json :=
  .object [("id", .str n.id), ("title", .str n.title), ("body", .str n.body),
    ("tags", .ofTexts n.tags), ("created_at", .ofMoment? n.created),
    ("updated_at", .ofMoment? n.updated)]

def ofOptions (o : Options) : Json :=
  .object [("max_results", .int o.maxResults), ("include_body", .bool o.includeBody),
    ("case_sensitive", .bool o.caseSensitive)]

def ofMatch (m : Match) : Json :=
  .object [("type", .str m.part.name), ("excerpt", .str m.excerpt),
    ("indices", .arr (m.indices.map fun i => .arr [.int i.1, .int i.2]))]

def ofQueryInfo (q : QueryInfo) : Json :=
  .object [("original_query", .str q.asked), ("parsed_query", .str q.parsed),
    ("execution_time_ms", .float q.elapsed)]

def ofResult (r : SearchResult) : Json :=
  .object [("note_id", .str r.noteId), ("title", .str r.title), ("body", .ofOption .str r.body),
    ("tags", .ofTexts r.tags), ("score", .float r.score),
    ("matches", .arr (r.matched.map ofMatch)), ("query_info", ofQueryInfo r.queryInfo)]

def ofVerdict (v : Verdict) : Json :=
  .object [("is_valid", .bool v.isValid), ("error", .ofOption .str v.error)]

def ofStats (s : Stats) : Json :=
  .object [("note_count", .int s.noteCount), ("tag_count", .int s.tagCount),
    ("snapshot_version", .int s.version)]

def ofSnapshot (s : Snapshot) : Json :=
  .object [("version", .int s.version), ("len", .int s.notes.length),
    ("vocabulary", .ofTexts s.vocabulary), ("notes", .arr (s.notes.map ofNote))]

end Json

end NoteQuery

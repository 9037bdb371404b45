import NoteQuery.Query.Error
import NoteQuery.Search.Evaluation
import NoteQuery.Telemetry.Level

/-!
# What is logged

Everything that the program logs is an `Event`. Each has a level, the name of the logger that it
comes from, a message, and attributes that structured lines tell beside the message.
-/

set_option autoImplicit false

namespace NoteQuery

/-- Something worth logging. -/
inductive Event where
  | rejected (error : QueryError)
  | invalidSearch (query : Text) (error : QueryError)
  | cancelledSearch (query : Text)
  /-- A search found `found` of `total` notes and gave back `returned` of them. -/
  | search (found total returned : Nat)
  | remark (warning : Evaluation.Warning)
  | published (version : Int) (notes tags : Nat)
  | tracingReady (service : Text)
  deriving DecidableEq, Repr

def Evaluation.Warning.message : Evaluation.Warning → Text
  | .unknownOperator kind => "Unknown operator ".toList ++ kind ++ " evaluated to empty set".toList
  | .unknownLeaf kind => "Unknown leaf operator ".toList ++ kind ++ " treated as no match".toList
  | .malformed detail => "Malformed operator tree evaluated to no results: ".toList ++ detail

namespace Event

def level : Event → Level
  | .rejected _ | .search _ _ _ => .debug
  | .cancelledSearch _ | .published _ _ _ | .tracingReady _ => .info
  | .invalidSearch _ _ | .remark _ => .warning

def logger : Event → Text
  | .rejected _ => "zettel_search.search.parser".toList
  | .remark _ => "zettel_search.search.evaluator".toList
  | .tracingReady _ => "zettel_search.observability.tracing".toList
  | .invalidSearch _ _ | .cancelledSearch _ | .search _ _ _ | .published _ _ _ =>
    "zettel_search.service_layer.search_service".toList

/-- The message of an event; `elapsed` is the text for how long a search took. -/
def message (elapsed : Text) : Event → Text
  | .rejected e => "Query rejected: ".toList ++ e.message
  | .invalidSearch _ e => "Rejected invalid search query: ".toList ++ e.message
  | .cancelledSearch _ => "Search cancelled before completion".toList
  | .search found total returned =>
    "Search matched ".toList ++ Text.ofNat found ++ " of ".toList ++ Text.ofNat total ++
      " notes (returned ".toList ++ Text.ofNat returned ++ ") in ".toList ++ elapsed
  | .remark w => w.message
  | .published version notes tags =>
    "Corpus snapshot v".toList ++ Text.ofInt version ++ " published: ".toList ++
      Text.ofNat notes ++ " notes, ".toList ++ Text.ofNat tags ++ " distinct tags".toList
  | .tracingReady service => "Tracing initialized for service: ".toList ++ service

def attributes : Event → List (Text × Text)
  | .rejected e => [("error_type".toList, e.kindName)]
  | .invalidSearch query e => [("query".toList, query), ("error_type".toList, e.kindName)]
  | .cancelledSearch query => [("query".toList, query)]
  | .search _ _ _ | .remark _ | .published _ _ _ | .tracingReady _ => []

end Event

end NoteQuery

import NoteQuery.Datum.Serial
import NoteQuery.Json.Printer
import NoteQuery.Note.Moment
import NoteQuery.Telemetry.Context
import NoteQuery.Telemetry.Event
import NoteQuery.Telemetry.Template
import NoteQuery.Text.Lower

/-!
# Log lines

A log record becomes one line: a JSON object that tells the record, the trace context and the
attributes of the record, or a plain line. In the JSON object long texts are clipped, and an
attribute with the name of a secret shows a mark in place of its value. An attribute with the name
of another member takes that member's place.
-/

set_option autoImplicit false

namespace NoteQuery

/-- What is to be logged. -/
structure LogRecord where
  /-- The microseconds from the start of 1970 to when the record was made. -/
  created : Int
  level : Text
  logger : Text
  template : Text
  arguments : List Datum
  failure : Option Text
  attributes : List (Text × Datum)

namespace LogRecord

def ofEvent (created : Int) (elapsed : Text) (e : Event) : LogRecord where
  created := created
  level := e.level.name
  logger := e.logger
  template := e.message elapsed
  arguments := []
  failure := none
  attributes := e.attributes.map fun a => (a.1, .text a.2)

def message (r : LogRecord) : Except Template.Failure Text :=
  Template.fill r.template r.arguments

end LogRecord

namespace LogLine

/-! ## What attributes show -/

def messageLimit : Nat := 2000

def attributeLimit : Nat := 500

def secretNames : List Text :=
  ["password", "token", "api_key", "secret", "authorization"].map String.toList

/-- The names that every record uses for itself. -/
def reservedNames : List Text :=
  ["name", "msg", "args", "levelname", "levelno", "pathname", "filename", "module", "exc_info",
    "exc_text", "stack_info", "lineno", "funcName", "created", "msecs", "relativeCreated",
    "thread", "threadName", "processName", "process", "message", "asctime"].map String.toList

def isSecret (name : Text) : Bool :=
  secretNames.contains (Text.lower name)

/-- Whether an attribute is left out. -/
def isHidden (name : Text) : Bool :=
  reservedNames.contains name || name.head? == some '_'

/-- What stands in place of a secret. -/
def redacted : Text := "[REDACTED]".toList

/-- What a line shows of an attribute. -/
def display (name : Text) (value : Datum) : Datum :=
  if isSecret name then .text redacted
  else
    match value with
    | .text t => .text (Text.clip attributeLimit t)
    | d => d

/-! ## The members of a line -/

/-- Why a record cannot be written. -/
inductive Failure where
  /-- The message does not go with its arguments. -/
  | template (failure : Template.Failure)
  /-- No calendar reaches the year in which the record was made. -/
  | yearRange (year : Int)
  /-- A value has no JSON text. -/
  | serial (error : Datum.SerialError)

def Failure.message : Failure → Text
  | .template f => f.message
  | .yearRange year => "year ".toList ++ Text.ofInt year ++ " is out of range".toList
  | .serial e => e.message

def timestamp (micros : Int) : Except Failure Text :=
  let days := micros / 86400000000 + 719468
  let year := (Date.ofMarchDays (days % 146097).toNat).year + 400 * (days / 146097)
  if 1 ≤ year && year ≤ 9999 then .ok (Moment.ofMicros micros).render
  else .error (.yearRange year)

/-- The last part of the name of a logger, if it has several. -/
def component? (logger : Text) : Option Text :=
  if List.elem '.' logger then some (logger.reverse.takeWhile (· != '.')).reverse else none

def core (context : Context) (r : LogRecord) (time message : Text) : List (Text × Datum) :=
  [("timestamp".toList, .text time), ("level".toList, .text r.level),
    ("message".toList, .text (Text.clip messageLimit message)), ("logger".toList, .text r.logger),
    (Tracing.traceKey, (getMember? Tracing.traceKey context).getD (.text [])),
    (Tracing.spanKey, (getMember? Tracing.spanKey context).getD (.text []))] ++
  ((component? r.logger).map fun c => ("component".toList, Datum.text c)).toList ++
  (((getMember? Tracing.engineKey context).filter Datum.isTruthy).map
    fun e => (Tracing.engineKey, e)).toList ++
  (r.failure.map fun t => ("exception".toList, Datum.text t)).toList

def withAttributes (attributes members : List (Text × Datum)) : List (Text × Datum) :=
  (attributes.filter fun a => !isHidden a.1).foldl
    (fun ms a => setMember a.1 (display a.1 a.2) ms) members

def members (context : Context) (r : LogRecord) : Except Failure (List (Text × Datum)) := do
  let time ← timestamp r.created
  let message ← r.message.mapError .template
  return withAttributes r.attributes (core context r time message)

def json (context : Context) (r : LogRecord) : Except Failure Json := do
  let ms ← members context r
  (Datum.toJson (.record ms)).mapError .serial

def render (context : Context) (r : LogRecord) : Except Failure Text :=
  (json context r).map (Json.render Json.compact)

def plain (level logger message : Text) : Text :=
  level ++ " [".toList ++ logger ++ "] ".toList ++ message

end LogLine

end NoteQuery

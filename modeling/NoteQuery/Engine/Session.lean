import NoteQuery.Engine.Basic
import NoteQuery.Intake.Record
import NoteQuery.Query.Help
import NoteQuery.Telemetry.Context
import NoteQuery.Telemetry.TraceSpan

/-!
# Sessions

A session is a number of engines that share metrics and a trace context. `Session.step` says what
one action on one engine makes of the session and what it reports: its result, the events that are
logged and the spans that are finished. A refused action changes neither an engine nor a metric.
-/

set_option autoImplicit false

namespace NoteQuery

/-- What can be asked of an engine. -/
inductive EngineAction where
  | load (notes : List Intake.Offer)
  | clear
  /-- Search, with options or without, and with so many checks for cancellation that pass. -/
  | search (query : Text) (options : Option Datum) (allowance : Option Nat)
  | validate (query : Text)
  | suggest (query : Text)
  | help
  | stats
  | snapshot
  | metrics

/-- What an engine replies. -/
inductive Reply where
  | done
  /-- The answer of a search; a search that did not run to its end has none. -/
  | answer (answer : Option Answer)
  | verdict (verdict : Verdict)
  | texts (texts : List Text)
  | stats (stats : Stats)
  | snapshot (snapshot : Snapshot)

/-- A reply as JSON, after `elapsed` milliseconds. -/
def Json.ofReply (elapsed : Float) : Reply → Json
  | .done => .null
  | .answer a => .arr (((a.map (·.results elapsed)).getD []).map ofResult)
  | .verdict v => ofVerdict v
  | .texts ts => ofTexts ts
  | .stats s => ofStats s
  | .snapshot s => ofSnapshot s

/-- What an action reports. -/
structure Report where
  result : Except Intake.Refusal Reply
  events : List Event
  spans : List (TraceSpan Intake.Refusal)

def Report.quiet (reply : Reply) : Report := ⟨.ok reply, [], []⟩

/-- Where an action finds ids for tracing. -/
structure TraceIds where
  fresh : IdSource
  /-- The id of the span around the action, if spans are recorded. -/
  span : Option Text

/-- Engines with what they share. -/
structure Session where
  engines : List Engine
  metrics : Metrics
  tracing : Tracing

namespace Session

def engineAttribute : Text := "note_search.engine".toList

def start (engines : List Engine) : Session := ⟨engines, .empty, .start⟩

def setEngine (index : Nat) (e : Engine) (s : Session) : Session :=
  { s with engines := s.engines.set index e }

/-- The trace context inside a span. -/
def enterSpan (ids : TraceIds) (t : Tracing) : Tracing :=
  match ids.span with
  | some id => t.updateSpan id
  | none => t

def load (ids : TraceIds) (s : Session) (index : Nat) (e : Engine) (notes : List Intake.Offer) :
    Session × Report :=
  let span := TraceSpan.start "note_search.initialize".toList [(engineAttribute, .text e.name)]
  let tracing := enterSpan ids s.tracing
  match Intake.notes notes with
  | .error refusal => ({ s with tracing }, ⟨.error refusal, [], [span.fail refusal]⟩)
  | .ok notes =>
    let next := e.publish notes
    let count := next.snapshot.notes.length
    ({ s.setEngine index next with metrics := s.metrics.publish e.name count, tracing },
      ⟨.ok .done,
        [.published next.snapshot.version count next.snapshot.vocabulary.length],
        [span.set "note_search.note_count".toList (.int count)]⟩)

/-- The options of a search: those of the caller, who may give none. -/
def options (e : Engine) : Option Datum → Except Intake.Refusal Options
  | none => .ok e.defaultOptions
  | some d => (Intake.options d).result "SearchOptions"

def search (ids : TraceIds) (s : Session) (e : Engine) (query : Text) (given : Option Datum)
    (allowance : Option Nat) : Session × Report :=
  match options e given with
  | .error refusal => (s, ⟨.error refusal, [], []⟩)
  | .ok options =>
    let tracing := enterSpan ids (s.tracing.bindEngine ids.fresh e.name)
    let outcome := e.search query options allowance
    let span := TraceSpan.start "note_search.search".toList
      ([(engineAttribute, .text e.name),
        ("note_search.snapshot_version".toList, .int e.snapshot.version)] ++ outcome.attributes)
    ({ s with metrics := s.metrics.search e.name outcome.status outcome.errorKind?, tracing },
      ⟨.ok (.answer outcome.answer?), outcome.events query e.snapshot.notes.length, [span]⟩)

def validate (query : Text) : Report :=
  ⟨.ok (.verdict (Engine.validate query)),
    ((Parsed.ofText query).error?.map Event.rejected).toList, []⟩

/-- What an action on the engine at an index makes of the session, and what it reports. -/
def step (ids : TraceIds) (s : Session) (index : Nat) (action : EngineAction) :
    Session × Report :=
  match s.engines[index]? with
  | none => (s, .quiet .done)
  | some e =>
    match action with
    | .load notes => load ids s index e notes
    | .clear => load ids s index e []
    | .search query given allowance => search ids s e query given allowance
    | .validate query => (s, validate query)
    | .suggest query => (s, .quiet (.texts (e.suggest query)))
    | .help => (s, .quiet (.texts (syntaxHelp.map String.toList)))
    | .stats => (s, .quiet (.stats e.stats))
    | .snapshot => (s, .quiet (.snapshot e.snapshot))
    | .metrics => (s, .quiet (.texts s.metrics.lines))

/-- The session after several actions, each on the engine at its index. -/
def run (ids : TraceIds) (s : Session) (actions : List (Nat × EngineAction)) : Session :=
  actions.foldl (fun s a => (s.step ids a.1 a.2).1) s

end Session

end NoteQuery

import NoteQuery.Datum.Basic

/-!
# The trace context

Log lines are correlated by a context: a trace id, a span id, the engine at work and whatever else
a caller put there. A context without a trace id is no context: reading it replaces it by one with
fresh ids. Only reading and binding an engine do that; setting the span leaves the rest alone.
-/

set_option autoImplicit false

namespace NoteQuery

/-- Where fresh ids come from: the `n`-th trace id and the `n`-th span id. -/
structure IdSource where
  trace : Nat → Text
  span : Nat → Text

abbrev Context := List (Text × Datum)

/-- The current context, if there is one, and the number of fresh ids taken so far. -/
structure Tracing where
  context : Option Context
  /-- The number of pairs of ids taken. -/
  issued : Nat

namespace Tracing

/-- No context, and no ids taken. -/
def start : Tracing := ⟨none, 0⟩

def traceKey : Text := "trace_id".toList

def spanKey : Text := "span_id".toList

def engineKey : Text := "engine".toList

/-- The members of the current context; none are the same as no context. -/
def members (t : Tracing) : Context :=
  t.context.getD []

/-- Whether the current context has a trace id. -/
def isTraced (t : Tracing) : Bool :=
  match getMember? traceKey t.members with
  | some d => d.isTruthy
  | none => false

/-- The current context, made anew where it has no trace id. -/
def read (ids : IdSource) (t : Tracing) : Tracing × Context :=
  if t.isTraced then (t, t.members)
  else
    let fresh := [(traceKey, .text (ids.trace t.issued)), (spanKey, .text (ids.span t.issued))]
    (⟨some fresh, t.issued + 1⟩, fresh)

def set (traceId spanId : Text) (extra : Context) (t : Tracing) : Tracing :=
  { t with
    context := some (extra.foldl (fun ms m => setMember m.1 m.2 ms)
      [(traceKey, .text traceId), (spanKey, .text spanId)]) }

def updateSpan (spanId : Text) (t : Tracing) : Tracing :=
  { t with context := some (setMember spanKey (.text spanId) t.members) }

def bindEngine (ids : IdSource) (engine : Text) (t : Tracing) : Tracing :=
  let (t, members) := t.read ids
  { t with context := some (setMember engineKey (.text engine) members) }

def engine? (t : Tracing) : Option Datum :=
  getMember? engineKey t.members

/-- What can happen to the context. -/
inductive Action where
  | set (traceId spanId : Text) (extra : Context)
  | updateSpan (spanId : Text)
  | bindEngine (engine : Text)
  | read

def apply (ids : IdSource) (t : Tracing) : Action → Tracing
  | .set traceId spanId extra => t.set traceId spanId extra
  | .updateSpan spanId => t.updateSpan spanId
  | .bindEngine engine => t.bindEngine ids engine
  | .read => (t.read ids).1

def run (ids : IdSource) (t : Tracing) (actions : List Action) : Tracing :=
  actions.foldl (apply ids) t

end Tracing

end NoteQuery

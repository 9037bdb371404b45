import NoteQuery.Order.Members
import NoteQuery.Telemetry.Event

/-!
# Starting telemetry

What telemetry sends away names the service that it comes from and further attributes. Tracing can
be started any number of times and metrics once; a tracer or a meter that nobody started is made
when it is first asked for.
-/

set_option autoImplicit false

namespace NoteQuery

/-- The attributes of what telemetry sends away. -/
abbrev Resource := List (Text × Text)

namespace Resource

def serviceKey : Text := "service.name".toList

def programKey : Text := "process.executable.name".toList

def unknownService (attributes : Resource) : Text :=
  "unknown_service".toList ++
    match getMember? programKey attributes with
    | some program => if program.isEmpty then [] else ':' :: program
    | none => []

/-- The attributes for a service; given ones come over its name. -/
def create (service : Text) (given : List (Text × Text)) : Resource :=
  let attributes := (given.filter fun a => !a.1.isEmpty).foldl
    (fun acc a => setMember a.1 a.2 acc) [(serviceKey, service)]
  if (getMember? serviceKey attributes).getD [] = [] then
    setMember serviceKey (unknownService attributes) attributes
  else attributes

def defaultService : Text := "zettel-search".toList

end Resource

/-- Something that is made at most once. -/
structure Once (α : Type) where
  value? : Option α
  deriving DecidableEq, Repr

namespace Once

variable {α : Type}

/-- Nothing was made. -/
def empty : Once α := ⟨none⟩

/-- What was made, or else is made now. -/
def get (make : α) (o : Once α) : α × Once α :=
  match o.value? with
  | some a => (a, o)
  | none => (make, ⟨some make⟩)

end Once

/-- Where telemetry goes. -/
structure Telemetry where
  tracer : Once Resource
  meter : Once Resource
  deriving DecidableEq, Repr

namespace Telemetry

/-- Nothing was started. -/
def off : Telemetry := ⟨.empty, .empty⟩

def startTracing (service : Text) (given : List (Text × Text)) (t : Telemetry) :
    Telemetry × List Event :=
  ({ t with tracer := ⟨some (.create service given)⟩ }, [.tracingReady service])

/-- Metrics started for a service, unless they were before, with where they go. -/
def startMetrics (service : Text) (given : List (Text × Text)) (t : Telemetry) :
    Resource × Telemetry :=
  let (resource, meter) := t.meter.get (.create service given)
  (resource, { t with meter })

/-- The tracer; nobody hears of what goes to one that was not started. -/
def askTracer (t : Telemetry) : Resource × Telemetry :=
  let (resource, tracer) := t.tracer.get []
  (resource, { t with tracer })

end Telemetry

end NoteQuery

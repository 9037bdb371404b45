import NoteQuery.Order.Ascending
import NoteQuery.Order.Members
import NoteQuery.Text.Basic

/-!
# Metrics that are recorded twice

A bridge records everything twice: in a metric, and in an instrument that follows it and that is
made when it is first needed. An instrument cannot be set, so setting the metric adds the
difference from the value that was set before for the same labels, unless there is none.
-/

set_option autoImplicit false

namespace NoteQuery

/-- The numbers that a bridge records. -/
class Amount (α : Type) extends Add α, Sub α where
  zero : α
  /-- Whether an amount is nothing. -/
  isZero : α → Bool

instance : Amount Float where
  zero := 0.0
  isZero x := x == 0.0

instance : Amount Int where
  zero := 0
  isZero i := i == 0

abbrev Labels := List (Text × Text)

def Labels.sorted (labels : Labels) : Labels :=
  ascending (fun a b => Text.before a.1 b.1) labels

/-- The instruments that can follow a metric. -/
inductive Instrument where
  | counter
  | histogram
  /-- Amounts are added up and may be below zero. -/
  | upDownCounter
  deriving DecidableEq, Repr

def Instrument.ofKind? (kind : Text) : Option Instrument :=
  if kind = "counter".toList then some .counter
  else if kind = "histogram".toList then some .histogram
  else if kind = "gauge".toList then some .upDownCounter
  else none

/-- What can be done to a metric. -/
inductive MetricChange (α : Type) where
  | inc (amount : α)
  | observe (value : α)
  | set (value : α)
  deriving DecidableEq, Repr

/-- What a bridge does. -/
inductive BridgeCall (α : Type) where
  | change (change : MetricChange α) (labels : Labels)
  | create (instrument : Instrument)
  | add (amount : α) (labels : Labels)
  | record (value : α) (labels : Labels)
  deriving DecidableEq, Repr

/-- What can go wrong around a metric. -/
inductive BridgeError where
  | unknownKind (kind : Text)
  | timed (message : Text)
  deriving DecidableEq, Repr

def BridgeError.message : BridgeError → Text
  | .unknownKind kind => "Unknown metric kind: ".toList ++ kind
  | .timed message => message

/-- A metric with the instrument that follows it. -/
structure Bridge (α : Type) where
  kind : Text
  made : Bool
  last : List (Labels × α)
  deriving DecidableEq, Repr

namespace Bridge

variable {α : Type} [Amount α]

def new (kind : Text) : Bridge α := ⟨kind, false, []⟩

def lastValue (b : Bridge α) (labels : Labels) : α :=
  (getMember? labels.sorted b.last).getD Amount.zero

/-- What a bridge becomes, what it does for that, and what goes wrong. -/
abbrev Effect (α : Type) := Bridge α × List (BridgeCall α) × Option BridgeError

/-- One call to the instrument, which is made before where it is not there yet. -/
def forward (b : Bridge α) (call : BridgeCall α) : Effect α :=
  if b.made then (b, [call], none)
  else
    match Instrument.ofKind? b.kind with
    | some instrument => ({ b with made := true }, [.create instrument, call], none)
    | none => (b, [], some (.unknownKind b.kind))

def follow (b : Bridge α) (labels : Labels) : MetricChange α → Effect α
  | .inc amount => b.forward (.add amount labels)
  | .observe value => b.forward (.record value labels)
  | .set value =>
    let difference := value - b.lastValue labels
    let (b, calls, error) :=
      if Amount.isZero difference then (b, [], none) else b.forward (.add difference labels)
    match error with
    | none => ({ b with last := setMember labels.sorted value b.last }, calls, none)
    | some e => (b, calls, some e)

/-- A change of the metric, with the instrument following. -/
def record (b : Bridge α) (labels : Labels) (change : MetricChange α) : Effect α :=
  let (b, calls, error) := b.follow labels change
  (b, .change change labels :: calls, error)

/-- One change after another, and all that the bridge does for them; one that goes wrong does not
keep the next from being made. -/
def run (b : Bridge α) (changes : List (Labels × MetricChange α)) :
    Bridge α × List (BridgeCall α) :=
  changes.foldl
    (fun r c =>
      let (b, calls, _) := r.1.record c.1 c.2
      (b, r.2 ++ calls))
    (b, [])

/-- The time that something took is observed, even where it failed. -/
def track (b : Bridge α) (labels : Labels) (elapsed : α) (failure : Option Text) : Effect α :=
  let (b, calls, error) := b.record labels (.observe elapsed)
  (b, calls, error <|> failure.map .timed)

end Bridge

end NoteQuery

import NoteQuery.Datum.Basic

/-!
# Spans

A span marks one operation for tracing. It has a name, attributes, and the error with which the
operation failed. Attributes are values of the simple kinds and sequences of one simple kind; any
other is not taken. A span holds so many attributes at most; after that the oldest goes.
-/

set_option autoImplicit false

namespace NoteQuery

/-- One operation; `ε` is the type of the errors with which it can fail. -/
structure TraceSpan (ε : Type) where
  name : Text
  attributes : List (Text × Datum)
  failure : Option ε

namespace TraceSpan

variable {ε : Type}

def isSimple : Datum → Bool
  | .bool _ | .int _ | .float _ | .text _ => true
  | _ => false

/-- Whether the entries of a sequence are of one simple kind, save those that are nothing. -/
def isUniform (entries : List Datum) : Bool :=
  let present := entries.filter fun d => d.kindName != Datum.null.kindName
  present.all isSimple && present.all fun d => some d.kindName == present.head?.map Datum.kindName

/-- What a span takes of the value of an attribute. -/
def taken? : Datum → Option Datum
  | .list es | .tuple es => if isUniform es then some (.list es) else none
  | d => if isSimple d then some d else none

def maxAttributes : Nat := 128

def set (name : Text) (value : Datum) (s : TraceSpan ε) : TraceSpan ε :=
  match taken? value with
  | none => s
  | some v =>
    if name.isEmpty then s
    else
      let others := s.attributes.filter (·.1 != name)
      let others := others.drop (others.length + 1 - maxAttributes)
      { s with attributes := others ++ [(name, v)] }

def start (name : Text) (attributes : List (Text × Datum)) : TraceSpan ε :=
  attributes.foldl (fun s a => s.set a.1 a.2) ⟨name, [], none⟩

def fail (error : ε) (s : TraceSpan ε) : TraceSpan ε :=
  { s with failure := some error }

def status (s : TraceSpan ε) : String :=
  if s.failure.isSome then "ERROR" else "UNSET"

end TraceSpan

end NoteQuery

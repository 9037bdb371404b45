import NoteQuery.Query.Checked
import NoteQuery.Search.Matching

/-!
# Evaluating a query tree

A leaf finds the ids of the notes that it matches, and the inner nodes work on sets of ids: a
conjunction intersects, a disjunction unites, and a negation complements against the whole corpus.
The answer lists the first note of each id found, in the order of the corpus: for a tree that is
evaluated to its end these are the notes of `Tree.selects`.

An evaluation can be cancelled. It checks for that once at every node it visits and once at every
note a leaf looks at; `allowance` is the number of checks that pass. A conjunction whose result is
already empty does not look at its remaining children.

Trees from callers can be malformed. An unknown or absent node finds nothing and leaves a warning.
A conjunction without children, and a tree that is taller than `Tree.heightLimit`, end the
evaluation with nothing found and a warning.
-/

set_option autoImplicit false

namespace NoteQuery

namespace Evaluation

/-- What an evaluation remarks on. -/
inductive Warning where
  | unknownOperator (kind : Text)
  | unknownLeaf (kind : Text)
  | malformed (detail : Text)
  deriving DecidableEq, Repr

/-- What ends an evaluation early. -/
inductive Halt where
  | cancelled
  | noChildren
  | tooTall
  deriving DecidableEq, Repr

/-- The wording of what ends an evaluation early. -/
def Halt.message : Halt → Text
  | .cancelled => "Search cancelled".toList
  | .noChildren => "tuple index out of range".toList
  | .tooTall => "maximum recursion depth exceeded".toList

/-- What an evaluation has done so far. -/
structure Trace where
  /-- The checks for cancellation made, the one that failed included. -/
  checks : Nat
  warnings : List Warning
  deriving DecidableEq, Repr

def Trace.empty : Trace := ⟨0, []⟩

abbrev Eval (α : Type) := ExceptT Halt (StateM Trace) α

/-- A check for cancellation; without an allowance every check passes. -/
def check (allowance : Option Nat) : Eval Unit := do
  let trace ← get
  set { trace with checks := trace.checks + 1 }
  match allowance with
  | some n => if n ≤ trace.checks then throw .cancelled else pure ()
  | none => pure ()

def warn (w : Warning) : Eval Unit :=
  modify fun trace => { trace with warnings := trace.warnings ++ [w] }

/-- What an evaluation is about. -/
structure Job where
  corpus : List Note
  mode : CaseMode
  allowance : Option Nat

/-- The ids of the notes among some that a leaf matches. -/
def leafIds (job : Job) (field : Field) (value : Text) : List Note → Eval (List Text)
  | [] => pure []
  | note :: notes => do
    check job.allowance
    let rest ← leafIds job field value notes
    pure (if note.matchesLeaf job.mode field value then note.id :: rest else rest)

mutual

/-- The ids that a tree finds; `room` is how much taller the tree may be. -/
def ids (job : Job) (room : Nat) (tree : Tree) : Eval (List Text) :=
  match room with
  | 0 => throw .tooTall
  | room + 1 =>
    match tree with
    | .leaf field value => do
      check job.allowance
      leafIds job field value job.corpus
    | .all [] => do
      check job.allowance
      throw .noChildren
    | .all (child :: children) => do
      check job.allowance
      let first ← ids job room child
      narrow job room first children
    | .any children => do
      check job.allowance
      widen job room children
    | .negation child => do
      check job.allowance
      let excluded ← ids job room child
      pure ((job.corpus.map (·.id)).filter fun id => !excluded.contains id)
    | .group child => do
      check job.allowance
      ids job room child
    | .absent => do
      check job.allowance
      warn (.unknownOperator tree.kindName)
      pure []
    | .unknown kind => do
      check job.allowance
      warn (.unknownOperator kind)
      pure []

/-- The ids among `found` that all children find too; once there are none, no child is asked. -/
def narrow (job : Job) (room : Nat) (found : List Text) : List Tree → Eval (List Text)
  | [] => pure found
  | child :: children =>
    if found.isEmpty then pure found
    else do
      let next ← ids job room child
      narrow job room (found.filter next.contains) children

/-- The ids that one of the children finds. -/
def widen (job : Job) (room : Nat) : List Tree → Eval (List Text)
  | [] => pure []
  | child :: children => do
    let found ← ids job room child
    let rest ← widen job room children
    pure (found ++ rest)

end

/-- The first note of each id that was found and not yet `seen`, in order. -/
def select (found seen : List Text) : List Note → List Note
  | [] => []
  | note :: notes =>
    if found.contains note.id && !seen.contains note.id then
      note :: select found (note.id :: seen) notes
    else select found seen notes

/-- What an evaluation comes to. -/
structure Outcome where
  /-- The notes found, or nothing if the evaluation was cancelled. -/
  notes? : Option (List Note)
  trace : Trace
  deriving DecidableEq, Repr

/-- Evaluate a tree. No tree, or no corpus, finds nothing without a check. -/
def evaluate (job : Job) (root : Option Tree) : Outcome :=
  match root with
  | none => ⟨some [], .empty⟩
  | some tree =>
    if job.corpus.isEmpty then ⟨some [], .empty⟩
    else
      match ids job Tree.heightLimit tree .empty with
      | (.ok found, trace) => ⟨some (select found [] job.corpus), trace⟩
      | (.error .cancelled, trace) => ⟨none, trace⟩
      | (.error halt, trace) =>
        ⟨some [], { trace with warnings := trace.warnings ++ [.malformed halt.message] }⟩

end Evaluation

/-- Whether a node is a leaf that matches a note. Any other node does not, and leaves a warning. -/
def Note.matchesNode (mode : CaseMode) (note : Note) : Tree → Bool × List Evaluation.Warning
  | .leaf field value => (note.matchesLeaf mode field value, [])
  | node => (false, [.unknownLeaf node.kindName])

end NoteQuery

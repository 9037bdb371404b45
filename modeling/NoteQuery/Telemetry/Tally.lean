import NoteQuery.Order.Members

/-!
# Tallies

A tally counts how often each of some things has happened.
-/

set_option autoImplicit false

namespace NoteQuery

/-- How often each thing has happened, in the order of their first times. -/
structure Tally (α : Type) where
  counts : List (α × Nat)
  deriving DecidableEq, Repr

namespace Tally

variable {α : Type} [DecidableEq α]

def empty : Tally α := ⟨[]⟩

/-- How often a thing has happened. -/
def count (t : Tally α) (a : α) : Nat :=
  (getMember? a t.counts).getD 0

/-- The tally after a thing has happened once more. -/
def add (a : α) (t : Tally α) : Tally α :=
  ⟨setMember a (t.count a + 1) t.counts⟩

@[simp] theorem count_empty (a : α) : (empty : Tally α).count a = 0 := rfl

/-- One more of a thing changes the count of that thing alone. -/
theorem count_add (a b : α) (t : Tally α) :
    (t.add a).count b = t.count b + if a = b then 1 else 0 := by
  by_cases h : a = b
  · subst h
    simp [add, count, getMember?_setMember]
  · simp [add, count, getMember?_setMember, h]

end Tally

end NoteQuery

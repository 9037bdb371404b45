import NoteQuery.Text.Alike

/-!
# Occurrences of a text

A needle occurs where the characters from there on are related to its own, one by one. The
relation is equality when case counts and being alike when it does not. `occurrences` lists the
places from left to right; the search goes on behind each one, so they do not overlap.
-/

set_option autoImplicit false

namespace NoteQuery

/-- Whether case counts when texts are compared. -/
inductive CaseMode where
  | exact
  /-- Characters that are alike match. -/
  | ignored
  deriving DecidableEq, Repr

namespace CaseMode

def ofSensitive (caseSensitive : Bool) : CaseMode :=
  if caseSensitive then .exact else .ignored

def related : CaseMode → Char → Char → Bool
  | .exact, a, b => a == b
  | .ignored, a, b => Text.alike a b

@[simp] theorem related_self (mode : CaseMode) (c : Char) : mode.related c c = true := by
  cases mode <;> simp [related]

end CaseMode

/-- A stretch of a text: its first offset and the offset behind its last character. -/
structure Span where
  start : Nat
  /-- The offset behind the last character. -/
  stop : Nat
  deriving DecidableEq, Repr

namespace Span

/-- The order of two spans by where they start and then by where they stop. -/
def before (s t : Span) : Bool :=
  s.start < t.start || (s.start == t.start && s.stop < t.stop)

/-- The same span `n` characters further on. -/
def shift (n : Nat) (s : Span) : Span :=
  ⟨n + s.start, n + s.stop⟩

end Span

namespace Text

def beginsWith (mode : CaseMode) : (needle text : Text) → Bool
  | [], _ => true
  | _ :: _, [] => false
  | n :: needle, c :: text => mode.related n c && beginsWith mode needle text

/-- Whether a needle occurs in a text. The empty needle occurs in every text. -/
def occursIn (mode : CaseMode) (needle : Text) : Text → Bool
  | [] => needle.isEmpty
  | c :: text => beginsWith mode needle (c :: text) || occursIn mode needle text

/-- The occurrences of a needle in what is left of a text, whose first character has a given
offset; `skip` characters still belong to the last occurrence. -/
def occurrencesFrom (mode : CaseMode) (needle : Text) (offset skip : Nat) : Text → List Span
  | [] => []
  | c :: text =>
    match skip with
    | k + 1 => occurrencesFrom mode needle (offset + 1) k text
    | 0 =>
      if beginsWith mode needle (c :: text) then
        ⟨offset, offset + needle.length⟩ ::
          occurrencesFrom mode needle (offset + 1) (needle.length - 1) text
      else occurrencesFrom mode needle (offset + 1) 0 text

/-- The occurrences of a needle in a text, from left to right and without overlap. The empty
needle has none. -/
def occurrences (mode : CaseMode) (needle text : Text) : List Span :=
  if needle.isEmpty then [] else occurrencesFrom mode needle 0 0 text

end Text

end NoteQuery

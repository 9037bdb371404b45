import NoteQuery.Text.Basic

/-!
# Runs of a case table

A case table pairs characters with their counterparts. Neighbouring characters mostly move by the
same distance, so a table is written as runs: every `step`-th code point from `first` to `last`
moves by `shift`.
-/

set_option autoImplicit false

namespace NoteQuery.Text

/-- The code points `first`, `first + step`, …, `last`, each of which moves by `shift`. -/
structure CaseRun where
  first : Nat
  last : Nat
  /-- The distance from one code point of the run to the next. -/
  step : Nat
  /-- The distance from a code point to its counterpart. -/
  shift : Int

namespace CaseRun

/-- Whether a run holds the code point `n`. -/
def covers (r : CaseRun) (n : Nat) : Bool :=
  r.first ≤ n && n ≤ r.last && (n - r.first) % r.step == 0

/-- The counterpart of a character; one that no run holds is its own. -/
def shifted (runs : List CaseRun) (c : Char) : Char :=
  match runs.find? (·.covers c.toNat) with
  | some r => Char.ofNat (c.toNat + r.shift).toNat
  | none => c

def convert (runs : List CaseRun) (expansions : List (Nat × List Nat)) (c : Char) : Text :=
  match expansions.find? (·.1 == c.toNat) with
  | some e => e.2.map Char.ofNat
  | none => [shifted runs c]

/-- A character below every entry of a table is its own counterpart. -/
theorem convert_of_lt {runs : List CaseRun} {expansions : List (Nat × List Nat)} {m : Nat}
    (hruns : ∀ r ∈ runs, m ≤ r.first) (hexpansions : ∀ e ∈ expansions, m ≤ e.1) {c : Char}
    (h : c.toNat < m) : convert runs expansions c = [c] := by
  have hrun : runs.find? (·.covers c.toNat) = none := by
    rw [List.find?_eq_none]
    intro r hr
    have hfirst := hruns r hr
    have hbelow : ¬ r.first ≤ c.toNat := by omega
    simp [covers, hbelow]
  have hexpansion : expansions.find? (·.1 == c.toNat) = none := by
    rw [List.find?_eq_none]
    intro e he
    have hfirst := hexpansions e he
    simp only [beq_iff_eq]
    omega
  simp only [convert, hexpansion, shifted, hrun]

end CaseRun

end NoteQuery.Text

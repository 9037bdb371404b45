import NoteQuery.Search.Evaluation

/-!
# The checks of an evaluation

How a step of an evaluation ends, and after how many checks for cancellation, depends on nothing
that was done before it (`Evaluation.Ends`): an allowance that covers the checks makes no
difference, and a smaller one ends the step at the first check that it does not cover. The checks of
steps that follow each other add up (`Evaluation.Ends.bind`).
-/

set_option autoImplicit false

namespace NoteQuery

namespace Evaluation

variable {α β : Type}

theorem bind_apply (e : Eval α) (f : α → Eval β) (trace : Trace) :
    (e >>= f) trace = match e trace with
      | (.ok a, next) => f a next
      | (.error halt, next) => (.error halt, next) := by
  show (ExceptT.bindCont f (e trace).1) (e trace).2 = _
  rcases e trace with ⟨halt | a, next⟩ <;> rfl

/-- How a step ends unless it is cancelled, whatever was done before it and whatever its
allowance. -/
structure Ends (step : Option Nat → Eval α) (result : Except Halt α) (checks : Nat)
    (warnings : List Warning) : Prop where
  /-- An allowance that covers the checks, or none, lets the step come to its end. -/
  passes : ∀ allowance trace, (∀ n, allowance = some n → trace.checks + checks ≤ n) →
    step allowance trace = (result, ⟨trace.checks + checks, trace.warnings ++ warnings⟩)
  /-- A smaller allowance ends the step at the first check that it does not cover. -/
  stops : ∀ n trace, trace.checks ≤ n → n < trace.checks + checks →
    ∃ left, step (some n) trace = (.error .cancelled, ⟨n + 1, left⟩)

theorem Ends.pure (a : α) : Ends (fun _ => Pure.pure a) (.ok a) 0 [] where
  passes _ trace _ := by
    rw [List.append_nil]
    rfl
  stops n trace hle hlt := absurd hlt (by omega)

theorem Ends.throw (halt : Halt) :
    Ends (fun _ => (MonadExcept.throw halt : Eval α)) (.error halt) 0 [] where
  passes _ trace _ := by
    rw [List.append_nil]
    rfl
  stops n trace hle hlt := absurd hlt (by omega)

theorem Ends.check : Ends check (.ok ()) 1 [] where
  passes allowance trace h := by
    rw [List.append_nil]
    cases allowance with
    | none => rfl
    | some n =>
      have hlt : ¬ n ≤ trace.checks := by
        have := h n rfl
        omega
      show (if n ≤ trace.checks then MonadExcept.throw .cancelled else Pure.pure () : Eval Unit)
        { trace with checks := trace.checks + 1 } = _
      rw [if_neg hlt]
      rfl
  stops n trace hle hlt := by
    obtain rfl : n = trace.checks := by omega
    refine ⟨trace.warnings, ?_⟩
    show (if trace.checks ≤ trace.checks then MonadExcept.throw .cancelled
      else Pure.pure () : Eval Unit) { trace with checks := trace.checks + 1 } = _
    rw [if_pos (Nat.le_refl _)]
    rfl

theorem Ends.warn (w : Warning) : Ends (fun _ => warn w) (.ok ()) 0 [w] where
  passes _ _ _ := rfl
  stops n trace hle hlt := absurd hlt (by omega)

/-- One step after the other makes the checks of both. -/
theorem Ends.bind {e : Option Nat → Eval α} {f : Option Nat → α → Eval β} {a : α}
    {result : Except Halt β} {k l : Nat} {ws vs : List Warning} (he : Ends e (.ok a) k ws)
    (hf : Ends (fun allowance => f allowance a) result l vs) :
    Ends (fun allowance => e allowance >>= f allowance) result (k + l) (ws ++ vs) where
  passes allowance trace h := by
    have hfirst := he.passes allowance trace fun n hn => by
      have := h n hn
      omega
    have hsecond := hf.passes allowance ⟨trace.checks + k, trace.warnings ++ ws⟩ fun n hn => by
      have := h n hn
      simp only
      omega
    rw [bind_apply, hfirst]
    simp only [hsecond, Nat.add_assoc, List.append_assoc]
  stops n trace hle hlt := by
    by_cases hfirst : n < trace.checks + k
    · obtain ⟨left, hstop⟩ := he.stops n trace hle hfirst
      exact ⟨left, by rw [bind_apply, hstop]⟩
    · have hpass := he.passes (some n) trace fun m hm => by
        have := Option.some.inj hm
        omega
      obtain ⟨left, hstop⟩ := hf.stops n ⟨trace.checks + k, trace.warnings ++ ws⟩
        (by simp only; omega) (by simp only; omega)
      exact ⟨left, by rw [bind_apply, hpass]; exact hstop⟩

theorem Ends.bind_error {e : Option Nat → Eval α} {halt : Halt} {k : Nat} {ws : List Warning}
    (he : Ends e (.error halt) k ws) (f : Option Nat → α → Eval β) :
    Ends (fun allowance => e allowance >>= f allowance) (.error halt) k ws where
  passes allowance trace h := by
    rw [bind_apply, he.passes allowance trace h]
  stops n trace hle hlt := by
    obtain ⟨left, hstop⟩ := he.stops n trace hle hlt
    exact ⟨left, by rw [bind_apply, hstop]⟩

end Evaluation

end NoteQuery

import NoteQuery.Proofs.Engine.Answers
import NoteQuery.Proofs.Engine.Steps
import NoteQuery.Proofs.Search.Cancellation

/-!
# Cancelling a search

The tree of a query is evaluated to its end or not at all, so a search that may be cancelled gives
the answer of the search that nobody cancels, or none (`Engine.search_of_allowance`). Cancelled or
not, it leaves the engines of a session as they were, and every later search reports what it would
have reported anyway (`Session.report_search_congr`, `Session.engines_run_congr`).
-/

set_option autoImplicit false

namespace NoteQuery

namespace Parsed

theorem known_of_ofText {q : Text} {t : Tree} (h : ofText q = .query t) : t.Known :=
  (shaped_of_ofText h).proper.known

end Parsed

/-! ## Searches -/

namespace Engine

variable {t : Tree} {checks : Nat}

/-- An allowance that covers the checks of the evaluation makes no difference to the search for a
tree. -/
theorem find_of_covered {e : Engine} {options : Options}
    (h : Evaluation.AllOrNothing e.snapshot.notes (.ofSensitive options.caseSensitive) t checks)
    (query : Text) {n : Nat} (hle : checks ≤ n) :
    e.find query t options (some n) = e.find query t options none := by
  unfold find
  rw [(h.covered n hle).1]

/-- A smaller allowance cancels the search for a tree. -/
theorem find_of_stopped {e : Engine} {options : Options}
    (h : Evaluation.AllOrNothing e.snapshot.notes (.ofSensitive options.caseSensitive) t checks)
    (query : Text) {n : Nat} (hlt : n < checks) :
    ∃ warnings, e.find query t options (some n) = .cancelled t warnings := by
  unfold find
  simp only [(h.stopped n hlt).1]
  exact ⟨_, rfl⟩

/-- A search needs an allowance for so many checks: with it the search comes to what the search comes
to that nobody cancels, and with less it is cancelled. -/
theorem search_of_allowance (e : Engine) (query : Text) (options : Options) :
    ∃ checks, (∀ n, checks ≤ n →
        e.search query options (some n) = e.search query options none) ∧
      ∀ n, n < checks → ∃ t warnings, e.search query options (some n) = .cancelled t warnings := by
  cases hquery : Parsed.ofText query with
  | rejected error =>
    refine ⟨0, fun n _ => ?_, nofun⟩
    rw [e.search_of_rejected options _ hquery, e.search_of_rejected options _ hquery]
  | empty =>
    refine ⟨0, fun n _ => ?_, nofun⟩
    rw [e.search_of_empty options _ hquery, e.search_of_empty options _ hquery]
  | query t =>
    obtain ⟨checks, -, h⟩ := Evaluation.exists_allOrNothing e.snapshot.notes
      (.ofSensitive options.caseSensitive) (Parsed.known_of_ofText hquery)
    simp only [search, hquery]
    refine ⟨checks, ?_, ?_⟩
    · intro n hle
      exact find_of_covered h query hle
    · intro n hlt
      exact ⟨t, find_of_stopped h query hlt⟩

end Engine

/-! ## Sessions -/

namespace Session

variable {s s' : Session}

theorem step_search_eq (ids : TraceIds) {index : Nat} {e : Engine}
    (h : s.engines[index]? = some e) (query : Text) (given : Option Datum)
    (allowance : Option Nat) :
    s.step ids index (.search query given allowance) = search ids s e query given allowance := by
  unfold step
  rw [h]

theorem report_search_congr (ids : TraceIds) (h : s.engines = s'.engines) (index : Nat)
    (query : Text) (given : Option Datum) (allowance : Option Nat) :
    (s.step ids index (.search query given allowance)).2 =
      (s'.step ids index (.search query given allowance)).2 := by
  cases hengine : s'.engines[index]? with
  | none =>
    unfold step
    rw [h, hengine]
  | some e =>
    rw [s'.step_search_eq ids hengine, s.step_search_eq ids (h ▸ hengine)]
    unfold search
    cases options e given with
    | error refusal => rfl
    | ok options => rfl

/-- A search leaves the engines as they were, whatever it comes to. -/
theorem engines_step_search (ids : TraceIds) (s : Session) (index : Nat) (query : Text)
    (given : Option Datum) (allowance : Option Nat) :
    (s.step ids index (.search query given allowance)).1.engines = s.engines := by
  cases hengine : s.engines[index]? with
  | none => rw [s.step_of_none ids hengine]
  | some e =>
    rw [s.step_search_eq ids hengine]
    unfold search
    cases options e given with
    | error refusal => rfl
    | ok options => rfl

theorem engines_load_congr (ids : TraceIds) (h : s.engines = s'.engines) (index : Nat) (e : Engine)
    (offers : List Intake.Offer) :
    (load ids s index e offers).1.engines = (load ids s' index e offers).1.engines := by
  unfold load
  cases Intake.notes offers with
  | error refusal => exact h
  | ok notes =>
    show s.engines.set index (e.publish notes) = s'.engines.set index (e.publish notes)
    rw [h]

/-- What an action makes of the engines depends on the engines alone. -/
theorem engines_step_congr (ids : TraceIds) (h : s.engines = s'.engines) (index : Nat)
    (action : EngineAction) :
    (s.step ids index action).1.engines = (s'.step ids index action).1.engines := by
  cases hengine : s'.engines[index]? with
  | none => rw [s'.step_of_none ids hengine action, s.step_of_none ids (h ▸ hengine) action, h]
  | some e =>
    cases action with
    | search query given allowance =>
      rw [s.engines_step_search ids, s'.engines_step_search ids, h]
    | load offers =>
      unfold step
      rw [h, hengine]
      exact engines_load_congr ids h index e offers
    | clear =>
      unfold step
      rw [h, hengine]
      exact engines_load_congr ids h index e []
    | validate _ | suggest _ | help | stats | snapshot | metrics =>
      unfold step
      rw [h, hengine]
      exact h

theorem engines_run_congr (ids : TraceIds) (h : s.engines = s'.engines)
    (actions : List (Nat × EngineAction)) :
    (s.run ids actions).engines = (s'.run ids actions).engines := by
  induction actions generalizing s s' with
  | nil => exact h
  | cons action actions ih => exact ih (engines_step_congr ids h action.1 action.2)

/-- A search with an allowance does to the session what the search does that nobody cancels, or it
replies with no answer and is counted as cancelled. -/
theorem step_search_of_allowance (ids : TraceIds) (s : Session) (index : Nat) (query : Text)
    (given : Option Datum) (n : Nat) :
    let cut := s.step ids index (.search query given (some n))
    let whole := s.step ids index (.search query given none)
    cut = whole ∨ ∃ e, s.engines[index]? = some e ∧ cut.2.result = .ok (.answer none) ∧
      cut.1 = { whole.1 with metrics := s.metrics.search e.name .cancelled none } := by
  intro cut whole
  cases hengine : s.engines[index]? with
  | none =>
    left
    show s.step ids index _ = s.step ids index _
    unfold step
    rw [hengine]
  | some e =>
    have hcut : cut = search ids s e query given (some n) := s.step_search_eq ids hengine ..
    have hwhole : whole = search ids s e query given none := s.step_search_eq ids hengine ..
    rw [hcut, hwhole]
    unfold search
    cases options e given with
    | error refusal => exact .inl rfl
    | ok options =>
      simp only
      obtain ⟨checks, hcovered, hstopped⟩ := e.search_of_allowance query options
      by_cases hle : checks ≤ n
      · rw [hcovered n hle]
        exact .inl rfl
      · obtain ⟨t, warnings, hcancelled⟩ := hstopped n (Nat.lt_of_not_le hle)
        rw [hcancelled]
        exact .inr ⟨e, rfl, rfl, rfl⟩

/-- Cancelling is all or nothing. An evaluation makes a number of checks of its own, at most one for
each node and one for each note at each node: an allowance for all of them gives the answer that the
evaluation has without one, and a smaller allowance ends it at the first check that is not covered.
A search has such a number too: it comes to what the search comes to that nobody cancels, or to no
results and one more search that is counted as cancelled. Whatever follows in the session, every
later search reports what it would report without it. -/
theorem cancellation_all_or_nothing :
    (∀ (corpus : List Note) (mode : CaseMode) (t : Tree), t.Known → corpus ≠ [] →
      ∃ checks, checks ≤ t.size * (1 + corpus.length) ∧
        Evaluation.AllOrNothing corpus mode t checks) ∧
    (∀ (e : Engine) (query : Text) (options : Options), ∃ checks,
      (∀ n, checks ≤ n → e.search query options (some n) = e.search query options none) ∧
        ∀ n, n < checks → (e.search query options (some n)).status = .cancelled ∧
          ∀ elapsed, (e.search query options (some n)).results elapsed = []) ∧
    ∀ (ids : TraceIds) (s : Session) (index : Nat) (query : Text) (given : Option Datum) (n : Nat),
      let cut := s.step ids index (.search query given (some n))
      let whole := s.step ids index (.search query given none)
      (cut = whole ∨ ∃ e, s.engines[index]? = some e ∧ cut.2.result = .ok (.answer none) ∧
        cut.1 = { whole.1 with metrics := s.metrics.search e.name .cancelled none }) ∧
      ∀ between other again options,
        ((cut.1.run ids between).step ids other (.search again options none)).2 =
          ((s.run ids between).step ids other (.search again options none)).2 := by
  refine ⟨?_, ?_, ?_⟩
  · intro corpus mode t hk _
    exact Evaluation.exists_allOrNothing corpus mode hk
  · intro e query options
    obtain ⟨checks, hcovered, hstopped⟩ := e.search_of_allowance query options
    refine ⟨checks, hcovered, ?_⟩
    intro n hlt
    obtain ⟨t, warnings, hcancelled⟩ := hstopped n hlt
    rw [hcancelled]
    exact ⟨rfl, fun _ => rfl⟩
  · intro ids s index query given n cut whole
    refine ⟨s.step_search_of_allowance ids index query given n, ?_⟩
    intro between other again options
    have hsearch : cut.1.engines = s.engines := s.engines_step_search ids index query given (some n)
    have hrun := engines_run_congr ids hsearch between
    exact report_search_congr ids hrun other again options none

/-- Two notes, and a conjunction of a negated leaf and another leaf. It makes eight checks: an
allowance for eight finds the second note, and no smaller one finds anything. -/
theorem cancellation_at_each_of_eight_checks :
    let idea : Note := ⟨['2'], "Idea".toList, [], [], none, none⟩
    let corpus : List Note := [⟨['1'], "Plan".toList, [], [], none, none⟩, idea]
    let t : Tree := .all [.negation (.leaf .title "plan".toList), .leaf .anywhere "a".toList]
    (Evaluation.evaluate ⟨corpus, .ignored, some 8⟩ (some t)).notes? = some [idea] ∧
      ∀ n, n < 8 → (Evaluation.evaluate ⟨corpus, .ignored, some n⟩ (some t)).notes? = none ∧
        (Evaluation.evaluate ⟨corpus, .ignored, some n⟩ (some t)).trace.checks = n + 1 := by
  intro idea corpus t
  have hknown : t.Known := ⟨trivial, trivial, trivial⟩
  obtain ⟨checks, hle, h⟩ := cancellation_all_or_nothing.1 corpus .ignored t hknown nofun
  have hchecks : checks = 8 := by
    have hcovered := (h.covered 12 hle).2
    have hcount : (Evaluation.evaluate ⟨corpus, .ignored, some 12⟩ (some t)).trace.checks = 8 := by
      decide +kernel
    exact hcovered.symm.trans hcount
  subst hchecks
  refine ⟨?_, h.stopped⟩
  rw [(h.covered 8 (Nat.le_refl 8)).1]
  decide +kernel

end Session

end NoteQuery

import NoteQuery.Engine.Basic
import NoteQuery.Proofs.Query.Completion
import NoteQuery.Proofs.Query.RoundTrip
import NoteQuery.Proofs.Search.Answers

/-!
# What a search answers

The tree of a query has a child under every connective and is never too tall, so that a search for
it either runs to its end or is cancelled. `Engine.search_of_query` says which answer it gives at
its end: the notes that the tree selects, up to the limit of the options, each with its highlights.
-/

set_option autoImplicit false

namespace NoteQuery

namespace Parsed

variable {q : Text} {t : Tree}

theorem filled_of_ofText (h : ofText q = .query t) : t.Filled :=
  (shaped_of_ofText h).proper.filled

/-- A query cannot open so many groups and negations that its tree is too tall. -/
theorem height_le_of_ofText (h : ofText q = .query t) : t.height ≤ Tree.heightLimit := by
  have hheight : t.height ≤ 303 := (shaped_of_ofText h).height_le
  show t.height ≤ 960
  omega

end Parsed

/-- The results that a search of `elapsed` milliseconds gives. -/
def SearchOutcome.results (elapsed : Float) (outcome : SearchOutcome) : List SearchResult :=
  match outcome.answer? with
  | some a => a.results elapsed
  | none => []

namespace Engine

variable {q : Text} {t : Tree}

/-- The answer of a search for a tree that runs to its end. -/
def answer (e : Engine) (query : Text) (root : Tree) (options : Options) : Answer :=
  let found := root.selects e.snapshot.notes (.ofSensitive options.caseSensitive)
  { query := query
    root := root
    includeBody := options.includeBody
    found := found.length
    hits := (Completion.upTo (some options.maxResults) found).map fun note =>
      (note, Highlight.explain (e.rules options) note (some root)) }

/-- The result that tells a note. -/
def resultFor (e : Engine) (query : Text) (root : Tree) (options : Options) (elapsed : Float)
    (note : Note) : SearchResult where
  noteId := note.id
  title := note.title
  body := if options.includeBody then some note.body else none
  tags := note.tags
  score := Answer.score
  matched := (Highlight.explain (e.rules options) note (some root)).map Highlight.toMatch
  queryInfo := ⟨query, root.render, elapsed⟩

/-- An answer tells the notes that the tree selects, up to the limit of the options. -/
theorem results_answer (e : Engine) (query : Text) (root : Tree) (options : Options)
    (elapsed : Float) :
    (e.answer query root options).results elapsed =
      (Completion.upTo (some options.maxResults)
        (root.selects e.snapshot.notes (.ofSensitive options.caseSensitive))).map
          (e.resultFor query root options elapsed) := by
  simp only [Answer.results, answer, List.map_map]
  rfl

theorem exists_resultFor_of_mem_results {e : Engine} {options : Options} {elapsed : Float}
    {r : SearchResult} (hr : r ∈ (e.answer q t options).results elapsed) :
    ∃ note ∈ t.selects e.snapshot.notes (.ofSensitive options.caseSensitive),
      r = e.resultFor q t options elapsed note := by
  rw [results_answer] at hr
  obtain ⟨note, hnote, rfl⟩ := List.mem_map.1 hr
  exact ⟨note, List.mem_of_mem_take hnote, rfl⟩

/-- A search for a tree that can be evaluated gives its answer, unless it is cancelled. -/
theorem find_eq (e : Engine) (options : Options) (allowance : Option Nat) (hf : t.Filled)
    (hh : t.height ≤ Tree.heightLimit) :
    (∃ warnings, e.find q t options allowance = .completed (e.answer q t options) warnings) ∨
      allowance ≠ none ∧
        ∃ warnings, e.find q t options allowance = .cancelled t warnings := by
  have houtcome := @Evaluation.evaluate_of_returns e.snapshot.notes
    (.ofSensitive options.caseSensitive) t (Evaluation.returns_ids hf hh) allowance
  unfold find
  generalize Evaluation.evaluate _ (some t) = outcome at houtcome ⊢
  rcases houtcome with hnotes | ⟨hallowance, hnotes⟩
  · refine .inl ⟨outcome.trace.warnings, ?_⟩
    simp only [hnotes]
    rfl
  · refine .inr ⟨hallowance, outcome.trace.warnings, ?_⟩
    simp only [hnotes]

/-- A search for a query gives the answer for its tree, unless it is cancelled. -/
theorem search_of_query (e : Engine) (options : Options) (allowance : Option Nat)
    (h : Parsed.ofText q = .query t) :
    (∃ warnings, e.search q options allowance = .completed (e.answer q t options) warnings) ∨
      allowance ≠ none ∧
        ∃ warnings, e.search q options allowance = .cancelled t warnings := by
  have hsearch : e.search q options allowance = e.find q t options allowance := by
    simp only [search, h]
  rw [hsearch]
  exact e.find_eq options allowance (Parsed.filled_of_ofText h) (Parsed.height_le_of_ofText h)

theorem search_of_empty (e : Engine) (options : Options) (allowance : Option Nat)
    (h : Parsed.ofText q = .empty) : e.search q options allowance = .empty := by
  simp only [search, h]

theorem search_of_rejected (e : Engine) (options : Options) (allowance : Option Nat)
    {error : QueryError} (h : Parsed.ofText q = .rejected error) :
    e.search q options allowance = .invalid error := by
  simp only [search, h]

/-- Every result comes from the answer for the tree of a query. -/
theorem exists_query_of_mem_results {e : Engine} {options : Options} {allowance : Option Nat}
    {elapsed : Float} {r : SearchResult}
    (hr : r ∈ (e.search q options allowance).results elapsed) :
    ∃ t, Parsed.ofText q = .query t ∧ r ∈ (e.answer q t options).results elapsed := by
  unfold SearchOutcome.results at hr
  cases hquery : Parsed.ofText q with
  | rejected error =>
    rw [e.search_of_rejected options allowance hquery] at hr
    exact absurd hr List.not_mem_nil
  | empty =>
    rw [e.search_of_empty options allowance hquery] at hr
    exact absurd hr List.not_mem_nil
  | query t =>
    rcases e.search_of_query options allowance hquery with ⟨_, hcompleted⟩ | ⟨-, _, hcancelled⟩
    · rw [hcompleted] at hr
      exact ⟨t, rfl, hr⟩
    · rw [hcancelled] at hr
      exact absurd hr List.not_mem_nil

/-- Without an allowance a search for a query gives all results of its answer. -/
theorem results_of_query (e : Engine) (options : Options) (elapsed : Float)
    (h : Parsed.ofText q = .query t) :
    (e.search q options none).results elapsed = (e.answer q t options).results elapsed := by
  rcases e.search_of_query options none h with ⟨_, hcompleted⟩ | ⟨hnone, -⟩
  · rw [hcompleted]
    rfl
  · exact absurd rfl hnone

end Engine

end NoteQuery

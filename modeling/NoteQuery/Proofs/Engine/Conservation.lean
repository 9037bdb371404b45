import NoteQuery.Proofs.Engine.Answers
import NoteQuery.Proofs.Engine.Steps

/-!
# What the metrics of a session count

In every run the metrics under the name of an engine are told by what happened on engines with that
name (`Session.Accounts`): every search is timed once and counted once, by the way in which it
ended, every rejected query is counted once by the kind of its error, and the size of the corpus is
that of the last one published. `Session.metrics_of_run` says it with what the searches asked for.
-/

set_option autoImplicit false

namespace NoteQuery

/-! ## Sums of tallies -/

namespace Tally

variable {α : Type} {p : α → Bool}

/-- How often the things of some sort have happened, all together. -/
def sum (p : α → Bool) (t : Tally α) : Nat :=
  t.counts.foldr (fun c n => (if p c.1 then c.2 else 0) + n) 0

variable [DecidableEq α]

/-- One more of a thing is one more of its sort. -/
theorem sum_add (a : α) (t : Tally α) : (t.add a).sum p = t.sum p + if p a then 1 else 0 := by
  obtain ⟨counts⟩ := t
  unfold sum add count
  induction counts with
  | nil => simp [setMember, getMember?]
  | cons c counts ih =>
    obtain ⟨b, n⟩ := c
    simp only at ih
    by_cases hb : b = a
    · -- The first entry is the one of `a`, and the others do not change.
      subst hb
      simp only [setMember, getMember?, if_true, Option.getD_some, List.foldr_cons]
      split <;> omega
    · simp only [setMember, getMember?, if_neg hb, List.foldr_cons, ih, Nat.add_assoc]

end Tally

/-! ## Searches -/

namespace Call

def evaluation (c : Call) (root : Tree) : Evaluation.Outcome :=
  Evaluation.evaluate ⟨c.engine.snapshot.notes, .ofSensitive c.options.caseSensitive, c.allowance⟩
    (some root)

/-- How a search ends, told by its query and by the evaluation. -/
inductive EndsAs (c : Call) : SearchStatus → Prop
  | invalid {error : QueryError} (hquery : Parsed.ofText c.query = .rejected error) :
      EndsAs c .invalid
  | empty (hquery : Parsed.ofText c.query = .empty) : EndsAs c .empty
  | cancelled {root : Tree} (hquery : Parsed.ofText c.query = .query root)
      (hnotes : (c.evaluation root).notes? = none) : EndsAs c .cancelled
  | completed {root : Tree} {found : List Note} (hquery : Parsed.ofText c.query = .query root)
      (hnotes : (c.evaluation root).notes? = some found) : EndsAs c .completed

theorem outcome_of_query {c : Call} {root : Tree} (h : Parsed.ofText c.query = .query root) :
    c.outcome.status = match (c.evaluation root).notes? with
      | none => .cancelled
      | some _ => .completed := by
  have hfind : c.outcome = c.engine.find c.query root c.options c.allowance := by
    unfold outcome Engine.search
    rw [h]
  rw [hfind]
  unfold Engine.find evaluation
  generalize Evaluation.evaluate _ (some root) = ended
  obtain ⟨notes?, trace⟩ := ended
  cases notes? <;> rfl

/-- A search ends in one way, the one that is counted. -/
theorem endsAs_iff {c : Call} {status : SearchStatus} :
    c.EndsAs status ↔ c.outcome.status = status := by
  constructor
  · intro h
    cases h with
    | invalid hquery => rw [outcome, Engine.search_of_rejected _ _ _ hquery, SearchOutcome.status]
    | empty hquery => rw [outcome, Engine.search_of_empty _ _ _ hquery, SearchOutcome.status]
    | cancelled hquery hnotes => rw [outcome_of_query hquery, hnotes]
    | completed hquery hnotes => rw [outcome_of_query hquery, hnotes]
  · rintro rfl
    cases hquery : Parsed.ofText c.query with
    | rejected error =>
      rw [outcome, Engine.search_of_rejected _ _ _ hquery]
      exact .invalid hquery
    | empty =>
      rw [outcome, Engine.search_of_empty _ _ _ hquery]
      exact .empty hquery
    | query root =>
      rw [outcome_of_query hquery]
      cases hnotes : (c.evaluation root).notes? with
      | none => exact .cancelled hquery hnotes
      | some found => exact .completed hquery hnotes

instance (c : Call) (status : SearchStatus) : Decidable (c.EndsAs status) :=
  decidable_of_iff (c.outcome.status = status) endsAs_iff.symm

end Call

/-! ## Metrics -/

namespace Metrics

/-- Whether metrics count, under the name of an engine, those of some searches that were asked of
engines with that name. -/
structure Counts (name : Text) (searches : List Call) (m : Metrics) : Prop where
  timed_eq : m.timed.count name = searches.countP fun c => c.engine.name = name
  requests_sum : m.requests.sum (fun key => key.1 = name) =
    searches.countP fun c => c.engine.name = name
  requests_eq : ∀ status, m.requests.count (name, status) =
    searches.countP fun c => c.engine.name = name ∧ c.EndsAs status
  errors_sum : m.queryErrors.sum (fun key => key.1 = name) =
    searches.countP fun c => c.engine.name = name ∧ c.EndsAs .invalid

variable {name : Text} {searches : List Call} {m : Metrics}

theorem counts_empty : empty.Counts name [] where
  timed_eq := rfl
  requests_sum := rfl
  requests_eq _ := rfl
  errors_sum := rfl

/-- A rejected query, and no other, adds one to the errors. -/
theorem sum_queryErrors_search (engine : Text) (outcome : SearchOutcome) (m : Metrics) :
    (m.search engine outcome.status outcome.errorKind?).queryErrors.sum (fun key => key.1 = name) =
      m.queryErrors.sum (fun key => key.1 = name) +
        if engine = name ∧ outcome.status = .invalid then 1 else 0 := by
  cases outcome with
  | invalid error =>
    show (m.queryErrors.add (engine, error.kindName)).sum _ = _
    rw [Tally.sum_add]
    simp [SearchOutcome.status]
  | empty | cancelled root warnings | completed answer warnings =>
    rw [if_neg (by simp [SearchOutcome.status])]
    rfl

theorem Counts.search (h : m.Counts name searches) (call : Call) :
    (m.search call.engine.name call.outcome.status call.outcome.errorKind?).Counts name
      (searches ++ [call]) := by
  constructor
  · show (m.timed.add call.engine.name).count name = _
    rw [Tally.count_add, h.timed_eq, List.countP_append, List.countP_singleton]
    simp only [decide_eq_true_eq]
  · show (m.requests.add (call.engine.name, call.outcome.status)).sum _ = _
    rw [Tally.sum_add, h.requests_sum, List.countP_append, List.countP_singleton]
  · intro status
    show (m.requests.add (call.engine.name, call.outcome.status)).count (name, status) = _
    rw [Tally.count_add, h.requests_eq, List.countP_append, List.countP_singleton]
    simp only [Prod.mk.injEq, Call.endsAs_iff, decide_eq_true_eq]
  · rw [sum_queryErrors_search, h.errors_sum, List.countP_append, List.countP_singleton]
    simp only [Call.endsAs_iff, decide_eq_true_eq]

theorem Counts.publish (h : m.Counts name searches) (engine : Text) (notes : Nat) :
    (m.publish engine notes).Counts name searches :=
  ⟨h.timed_eq, h.requests_sum, h.requests_eq, h.errors_sum⟩

end Metrics

/-! ## Runs -/

namespace Session

variable {name : Text} {past : List Entry} {s : Session}

def onName (name : Text) (history : List Entry) : List Entry :=
  history.filter fun entry => entry.engine.name == name

/-- Whether the metrics of a session tell, under a name, what happened on the engines that have it. -/
structure Accounts (name : Text) (past : List Entry) (s : Session) : Prop where
  counts : s.metrics.Counts name (calls past)
  corpusNotes_eq : getMember? name s.metrics.corpusNotes =
    (publications (onName name past)).getLast?.map List.length

theorem Accounts.corpusNotes_concat {entry : Entry} (h : s.Accounts name past)
    (hpublished : entry.published? = none) :
    getMember? name s.metrics.corpusNotes =
      (publications (onName name (past ++ [entry]))).getLast?.map List.length := by
  unfold onName
  rw [publications_filter_concat, hpublished, Option.toList_none, ite_self, List.append_nil]
  exact h.corpusNotes_eq

/-- Every action leaves the metrics telling what happened. -/
theorem accounts_step (ids : TraceIds) {index : Nat} {e : Engine} (action : EngineAction)
    (hengine : s.engines[index]? = some e) (h : s.Accounts name past) :
    (s.step ids index action).1.Accounts name (past ++ [s.entry ids index e action]) := by
  cases step_effect ids hengine action with
  | @publishes offers notes hpublished hcall hnotes _ hmetrics =>
    have hlength : notes.length = offers.length :=
      (Intake.notes_eq_ok_iff.1 hnotes).length_eq.symm
    constructor
    · rw [hmetrics, calls_concat, hcall, Option.toList_none, List.append_nil]
      exact h.counts.publish e.name notes.length
    · unfold onName
      rw [hmetrics, publications_filter_concat, hpublished, Option.toList_some]
      show getMember? name (setMember e.name notes.length s.metrics.corpusNotes) =
        (_ ++ if e.name == name then [offers] else []).getLast?.map List.length
      rw [getMember?_setMember]
      by_cases hname : e.name = name
      · rw [if_pos hname, if_pos (beq_iff_eq.2 hname), List.getLast?_concat, hlength]
        rfl
      · rw [if_neg hname, if_neg (mt beq_iff_eq.1 hname), List.append_nil]
        exact h.corpusNotes_eq
  | @searches call hpublished hcall _ hmetrics =>
    have hsame : call.engine = e := EngineAction.engine_of_call? hcall
    constructor
    · rw [hmetrics, calls_concat, hcall, Option.toList_some, entry, ← hsame]
      exact h.counts.search call
    · rw [hmetrics]
      exact h.corpusNotes_concat hpublished
  | keeps hpublished hcall _ hmetrics =>
    constructor
    · rw [hmetrics, calls_concat, hcall, Option.toList_none, List.append_nil]
      exact h.counts
    · rw [hmetrics]
      exact h.corpusNotes_concat hpublished

/-- In every run the metrics under a name tell what happened on the engines that have it: as many
searches were timed as were counted, by all ways to end together, and as were made; as many errors
were counted, of all kinds together, as rejected queries; each way to end was counted as often as a
search ended so; and the size of the corpus is that of the last one published. -/
theorem metrics_of_run (ids : TraceIds) (engines : List Engine)
    (actions : List (Nat × EngineAction)) (name : Text) :
    let history := (start engines).history ids actions
    let searches := (calls history).filter fun c => c.engine.name = name
    let m := ((start engines).run ids actions).metrics
    m.timed.count name = m.requests.sum (fun key => key.1 = name) ∧
    m.timed.count name = searches.length ∧
    m.queryErrors.sum (fun key => key.1 = name) = m.requests.count (name, .invalid) ∧
    (∀ status, m.requests.count (name, status) = searches.countP fun c => c.EndsAs status) ∧
    getMember? name m.corpusNotes =
      (publications (onName name history)).getLast?.map List.length := by
  intro history searches m
  have h : ((start engines).run ids actions).Accounts name history := by
    refine run_induction ids ?_ actions [] (start engines) ⟨Metrics.counts_empty, rfl⟩
    intro past s index e action hengine h
    exact accounts_step ids action hengine h
  have hsearches : searches.length = (calls history).countP fun c => c.engine.name = name :=
    List.countP_eq_length_filter.symm
  refine ⟨?_, ?_, ?_, ?_, h.corpusNotes_eq⟩
  · rw [h.counts.timed_eq, h.counts.requests_sum]
  · rw [h.counts.timed_eq, hsearches]
  · rw [h.counts.errors_sum, h.counts.requests_eq]
  · intro status
    rw [h.counts.requests_eq, List.countP_filter]
    apply List.countP_congr
    intro c _
    simp only [decide_eq_true_eq, Bool.and_eq_true, and_comm]

end Session

end NoteQuery

import NoteQuery.Engine.Session
import NoteQuery.Proofs.Intake.Notes

/-!
# What an action does to a session

An action publishes a corpus, is counted as a search, or changes nothing: `Session.step_effect` says
of each what it does to the engines and to the metrics. Everything that is said of sessions rests on
it. The history of a run lists its actions with the engines they were done on and their results, and
what every action keeps, a run keeps (`Session.run_induction`).
-/

set_option autoImplicit false

namespace NoteQuery

/-! ## Actions -/

/-- A search that an engine is asked for. -/
structure Call where
  engine : Engine
  query : Text
  options : Options
  /-- The number of checks for cancellation that pass. -/
  allowance : Option Nat

namespace Call

def outcome (c : Call) : SearchOutcome :=
  c.engine.search c.query c.options c.allowance

end Call

namespace EngineAction

/-- What is offered for a new corpus: nothing to clear the old one. -/
def offers? : EngineAction → Option (List Intake.Offer)
  | .load offers => some offers
  | .clear => some []
  | _ => none

def call? (e : Engine) : EngineAction → Option Call
  | .search query given allowance =>
    match Session.options e given with
    | .ok options => some ⟨e, query, options, allowance⟩
    | .error _ => none
  | _ => none

theorem engine_of_call? {e : Engine} {action : EngineAction} {call : Call}
    (h : action.call? e = some call) : call.engine = e := by
  cases action with
  | search query given allowance =>
    rw [call?] at h
    cases hoptions : Session.options e given with
    | error refusal =>
      rw [hoptions] at h
      cases h
    | ok options =>
      rw [hoptions] at h
      obtain rfl := Option.some.inj h
      rfl
  | _ => cases h

end EngineAction

namespace Session

/-- An action of a run on an engine that was there. -/
structure Entry where
  index : Nat
  engine : Engine
  action : EngineAction
  result : Except Intake.Refusal Reply

namespace Entry

/-- What was offered for the corpus that the action published, if it did. -/
def published? (entry : Entry) : Option (List Intake.Offer) :=
  match entry.result with
  | .ok _ => entry.action.offers?
  | .error _ => none

/-- The search that the action was, if it was one. -/
def call? (entry : Entry) : Option Call :=
  entry.action.call? entry.engine

end Entry

def entry (ids : TraceIds) (s : Session) (index : Nat) (e : Engine) (action : EngineAction) :
    Entry :=
  ⟨index, e, action, (s.step ids index action).2.result⟩

/-- What an action does to engines and metrics. -/
inductive Effect (s next : Session) (entry : Entry) : Prop
  /-- All offers are taken, and the engine has a new corpus. -/
  | publishes {offers : List Intake.Offer} {notes : List Note}
      (hpublished : entry.published? = some offers) (hcall : entry.call? = none)
      (hnotes : Intake.notes offers = .ok notes)
      (hengines : next.engines = s.engines.set entry.index (entry.engine.publish notes))
      (hmetrics : next.metrics = s.metrics.publish entry.engine.name notes.length)
  /-- A search is counted. -/
  | searches {call : Call} (hpublished : entry.published? = none)
      (hcall : entry.call? = some call) (hengines : next.engines = s.engines)
      (hmetrics : next.metrics =
        s.metrics.search entry.engine.name call.outcome.status call.outcome.errorKind?)
  /-- The action is refused or only looks, and nothing changes. -/
  | keeps (hpublished : entry.published? = none) (hcall : entry.call? = none)
      (hengines : next.engines = s.engines) (hmetrics : next.metrics = s.metrics)

theorem load_effect (ids : TraceIds) (s : Session) (index : Nat) (e : Engine)
    {action : EngineAction} {offers : List Intake.Offer} (hoffers : action.offers? = some offers)
    (hcall : action.call? e = none) :
    Effect s (load ids s index e offers).1
      ⟨index, e, action, (load ids s index e offers).2.result⟩ := by
  unfold load
  cases hnotes : Intake.notes offers with
  | error refusal => exact .keeps rfl hcall rfl rfl
  | ok notes => exact .publishes hoffers hcall hnotes rfl rfl

theorem search_effect (ids : TraceIds) (s : Session) (index : Nat) (e : Engine) (query : Text)
    (given : Option Datum) (allowance : Option Nat) :
    Effect s (search ids s e query given allowance).1
      ⟨index, e, .search query given allowance,
        (search ids s e query given allowance).2.result⟩ := by
  unfold search
  cases hoptions : options e given with
  | error refusal =>
    have hcall : (EngineAction.search query given allowance).call? e = none := by
      rw [EngineAction.call?, hoptions]
    exact .keeps rfl hcall rfl rfl
  | ok options =>
    have hcall : (EngineAction.search query given allowance).call? e =
        some ⟨e, query, options, allowance⟩ := by
      rw [EngineAction.call?, hoptions]
    exact .searches rfl hcall rfl rfl

/-- What an action on an engine that is there does. -/
theorem step_effect (ids : TraceIds) {s : Session} {index : Nat} {e : Engine}
    (h : s.engines[index]? = some e) (action : EngineAction) :
    Effect s (s.step ids index action).1 (s.entry ids index e action) := by
  unfold entry step
  rw [h]
  cases action with
  | load offers => exact load_effect ids s index e rfl rfl
  | clear => exact load_effect ids s index e rfl rfl
  | search query given allowance => exact search_effect ids s index e query given allowance
  | validate query => exact .keeps rfl rfl rfl rfl
  | suggest query => exact .keeps rfl rfl rfl rfl
  | help | stats | snapshot | metrics => exact .keeps rfl rfl rfl rfl

/-- Where there is no engine, nothing happens. -/
theorem step_of_none (ids : TraceIds) {s : Session} {index : Nat}
    (h : s.engines[index]? = none) (action : EngineAction) : (s.step ids index action).1 = s := by
  unfold step
  rw [h]

/-- An action leaves all engines as they are, or publishes notes on the one at its index. -/
theorem engines_step (ids : TraceIds) (s : Session) (index : Nat) (action : EngineAction) :
    (s.step ids index action).1.engines = s.engines ∨
      ∃ (e : Engine) (notes : List Note),
        (s.step ids index action).1.engines = s.engines.set index (e.publish notes) := by
  cases hengine : s.engines[index]? with
  | none =>
    left
    rw [step_of_none ids hengine]
  | some e =>
    cases step_effect ids hengine action with
    | publishes _ _ _ hengines _ => exact .inr ⟨e, _, hengines⟩
    | searches _ _ hengines _ | keeps _ _ hengines _ => exact .inl hengines

/-! ## Replies -/

theorem result_load (ids : TraceIds) {s : Session} {index : Nat} {e : Engine}
    (h : s.engines[index]? = some e) (offers : List Intake.Offer) :
    (s.step ids index (.load offers)).2.result = (Intake.notes offers).map fun _ => .done := by
  unfold step load
  rw [h]
  simp only
  cases Intake.notes offers <;> rfl

theorem result_suggest (ids : TraceIds) {s : Session} {index : Nat} {e : Engine}
    (h : s.engines[index]? = some e) (query : Text) :
    (s.step ids index (.suggest query)).2.result = .ok (.texts (e.suggest query)) := by
  unfold step
  rw [h]
  rfl

theorem result_search (ids : TraceIds) {s : Session} {index : Nat} {e : Engine}
    (h : s.engines[index]? = some e) (query : Text) {given : Datum} {o : Options}
    (hoptions : (Intake.options given).result "SearchOptions" = .ok o) (allowance : Option Nat) :
    (s.step ids index (.search query (some given) allowance)).2.result =
      .ok (.answer (e.search query o allowance).answer?) := by
  unfold step search options
  rw [h]
  simp only [hoptions]

/-! ## Runs -/

/-- The actions of a run that found their engines. -/
def history (ids : TraceIds) (s : Session) : List (Nat × EngineAction) → List Entry
  | [] => []
  | (index, action) :: actions =>
    let rest := history ids (s.step ids index action).1 actions
    match s.engines[index]? with
    | some e => s.entry ids index e action :: rest
    | none => rest

def publications (history : List Entry) : List (List Intake.Offer) :=
  history.filterMap Entry.published?

/-- The searches, in order. -/
def calls (history : List Entry) : List Call :=
  history.filterMap Entry.call?

/-- An action on an engine of some sort adds what it published to what was published there. -/
theorem publications_filter_concat (p : Entry → Bool) (past : List Entry) (entry : Entry) :
    publications ((past ++ [entry]).filter p) =
      publications (past.filter p) ++ if p entry then entry.published?.toList else [] := by
  unfold publications
  rw [List.filter_append, List.filterMap_append, List.filter_cons, List.filter_nil]
  split
  · cases hpublished : entry.published? with
    | none => rw [List.filterMap_cons_none hpublished, List.filterMap_nil, Option.toList_none]
    | some offers => rw [List.filterMap_cons_some hpublished, List.filterMap_nil, Option.toList_some]
  · rfl

theorem calls_concat (past : List Entry) (entry : Entry) :
    calls (past ++ [entry]) = calls past ++ entry.call?.toList := by
  unfold calls
  rw [List.filterMap_append]
  cases hcall : entry.call? with
  | none => rw [List.filterMap_cons_none hcall, List.filterMap_nil, Option.toList_none]
  | some call => rw [List.filterMap_cons_some hcall, List.filterMap_nil, Option.toList_some]

/-- What every action keeps, told by the history so far, a run keeps. -/
theorem run_induction {P : List Entry → Session → Prop} (ids : TraceIds)
    (hstep : ∀ (past : List Entry) (s : Session) (index : Nat) (e : Engine)
      (action : EngineAction), s.engines[index]? = some e → P past s →
      P (past ++ [s.entry ids index e action]) (s.step ids index action).1)
    (actions : List (Nat × EngineAction)) (past : List Entry) (s : Session) (h : P past s) :
    P (past ++ s.history ids actions) (s.run ids actions) := by
  -- By induction on the actions to come, for every past: each action moves one entry over.
  induction actions generalizing past s with
  | nil => rwa [history, List.append_nil]
  | cons a actions ih =>
    obtain ⟨index, action⟩ := a
    show P _ (run ids (s.step ids index action).1 actions)
    unfold history
    cases hengine : s.engines[index]? with
    | none =>
      have hsame := s.step_of_none ids hengine action
      rw [hsame]
      exact ih past s h
    | some e =>
      have hnext := hstep past s index e action hengine h
      have hrun := ih _ _ hnext
      rwa [List.append_assoc, List.singleton_append] at hrun

end Session

end NoteQuery

import Mathlib.Data.List.Basic
import Mathlib.Data.List.Induction
import NoteQuery.Telemetry.Context

/-!
# Which span and which engine a context tells

Reading a context is what log lines do, so `Tracing.shownSpan` and `Tracing.shownEngine` are what they
are correlated by. Once there is a trace id, reading shows what was set last. Without one it shows
fresh ids, and the span that was set is lost: `Tracing.isTraced_run_iff` tells from the actions alone
when there is a trace id, and `Tracing.run_correlates` puts the two together.
-/

set_option autoImplicit false

namespace NoteQuery.Tracing

variable {ids : IdSource} {t : Tracing} {a : Action} {actions : List Action}

/-! ## Actions -/

namespace Action

def span? : Action → Option Text
  | .set _ spanId _ | .updateSpan spanId => some spanId
  | .bindEngine _ | .read => none

def engine? : Action → Option Text
  | .bindEngine engine => some engine
  | .set _ _ _ | .updateSpan _ | .read => none

def isSet : Action → Bool
  | .set _ _ _ => true
  | .updateSpan _ | .bindEngine _ | .read => false

/-- Whether there is a trace id behind an action, whatever was there before. -/
def givesTrace : Action → Bool
  | .set traceId _ _ => !traceId.isEmpty
  | .updateSpan _ => false
  | .bindEngine _ | .read => true

/-- Whether the further members of a context have names other than those of the two ids. -/
def Plain : Action → Prop
  | .set _ _ extra => ∀ m ∈ extra, m.1 ≠ traceKey ∧ m.1 ≠ spanKey
  | .updateSpan _ | .bindEngine _ | .read => True

end Action

/-- Whether some actions leave a trace id: one of them gives it, and none sets the context anew
after that. -/
def LeavesTrace (actions : List Action) : Prop :=
  ∃ before a after, actions = before ++ a :: after ∧ a.givesTrace = true ∧
    ∀ b ∈ after, b.isSet = false

theorem not_leavesTrace_nil : ¬ LeavesTrace [] := by
  rintro ⟨before, a, after, hactions, -⟩
  exact absurd hactions (by simp)

theorem leavesTrace_concat :
    LeavesTrace (actions ++ [a]) ↔
      a.givesTrace = true ∨ a.isSet = false ∧ LeavesTrace actions := by
  constructor
  · rintro ⟨before, b, after, hactions, hgives, hafter⟩
    rcases List.eq_nil_or_concat' after with rfl | ⟨after, c, rfl⟩
    · obtain ⟨-, hlast⟩ := List.append_inj' hactions rfl
      obtain ⟨rfl, -⟩ := List.cons.inj hlast
      exact .inl hgives
    · rw [← List.cons_append, ← List.append_assoc] at hactions
      obtain ⟨rfl, hlast⟩ := List.append_inj' hactions rfl
      obtain ⟨rfl, -⟩ := List.cons.inj hlast
      obtain ⟨hafter, hlast⟩ := List.forall_mem_append.1 hafter
      exact .inr ⟨hlast a List.mem_cons_self, before, b, after, rfl, hgives, hafter⟩
  · rintro (hgives | ⟨hset, before, b, after, rfl, hgives, hafter⟩)
    · exact ⟨actions, a, [], rfl, hgives, by simp⟩
    · refine ⟨before, b, after ++ [a], by simp, hgives, ?_⟩
      rw [List.forall_mem_append]
      exact ⟨hafter, List.forall_mem_singleton.2 hset⟩

/-! ## Reading -/

/-- The span that reading the context shows. -/
def shownSpan (ids : IdSource) (t : Tracing) : Option Datum :=
  getMember? spanKey (t.read ids).2

/-- The engine that reading the context shows. -/
def shownEngine (ids : IdSource) (t : Tracing) : Option Datum :=
  getMember? engineKey (t.read ids).2

theorem read_of_traced (h : t.isTraced = true) : t.read ids = (t, t.members) := by
  unfold read
  rw [if_pos h]

theorem shownSpan_of_traced (h : t.isTraced = true) :
    t.shownSpan ids = getMember? spanKey t.members := by
  rw [shownSpan, read_of_traced h]

theorem shownSpan_of_not_traced (h : ¬ t.isTraced = true) :
    t.shownSpan ids = some (.text (ids.span t.issued)) := by
  unfold shownSpan read
  rw [if_neg h]
  rfl

theorem shownEngine_of_traced (h : t.isTraced = true) : t.shownEngine ids = t.engine? := by
  rw [shownEngine, read_of_traced h]
  rfl

theorem isTruthy_text {u : Text} : (Datum.text u).isTruthy = !u.isEmpty :=
  rfl

theorem members_read (ids : IdSource) (t : Tracing) : (t.read ids).1.members = (t.read ids).2 := by
  unfold read
  split <;> rfl

/-- Whoever reads a context leaves it with a trace id, and with the members that were read. -/
theorem read_spec (hids : ∀ n, ids.trace n ≠ []) (t : Tracing) :
    (t.read ids).1.isTraced = true ∧ (t.read ids).1.members = (t.read ids).2 := by
  refine ⟨?_, members_read ids t⟩
  by_cases h : t.isTraced = true
  · rw [read_of_traced h]
    exact h
  · unfold read
    rw [if_neg h]
    simpa [isTraced, members, getMember?, isTruthy_text] using hids t.issued

/-! ## One action -/

/-- Further members leave the others as they are. -/
theorem getMember?_extra {name : Text} {extra : Context} (h : ∀ m ∈ extra, m.1 ≠ name)
    (base : Context) :
    getMember? name (extra.foldl (fun ms m => setMember m.1 m.2 ms) base) =
      getMember? name base := by
  induction extra generalizing base with
  | nil => rfl
  | cons m extra ih =>
    obtain ⟨hm, hextra⟩ := List.forall_mem_cons.1 h
    rw [List.foldl_cons, ih hextra, getMember?_setMember, if_neg hm]

/-- Whether there is a trace id after an action. -/
theorem isTraced_apply (hids : ∀ n, ids.trace n ≠ []) (t : Tracing) (ha : a.Plain) :
    (t.apply ids a).isTraced = (a.givesTrace || !a.isSet && t.isTraced) := by
  cases a with
  | set traceId spanId extra =>
    have htrace : getMember? traceKey (t.set traceId spanId extra).members =
        some (.text traceId) := getMember?_extra (fun m hm => (ha m hm).1) _
    simp only [apply, isTraced, htrace, isTruthy_text, Action.givesTrace, Action.isSet,
      Bool.not_true, Bool.false_and, Bool.or_false]
  | updateSpan spanId =>
    have htrace : getMember? traceKey (t.updateSpan spanId).members =
        getMember? traceKey t.members := getMember?_setMember spanKey traceKey _ _
    simp only [apply, isTraced, htrace, Action.givesTrace, Action.isSet, Bool.not_false,
      Bool.true_and, Bool.false_or]
  | bindEngine engine =>
    have htrace : getMember? traceKey (t.bindEngine ids engine).members =
        getMember? traceKey (t.read ids).1.members := by
      rw [(read_spec hids t).2]
      exact getMember?_setMember engineKey traceKey _ _
    have hread := (read_spec hids t).1
    rw [isTraced] at hread
    simp only [apply, isTraced, htrace, hread, Action.givesTrace, Bool.true_or]
  | read => exact (read_spec hids t).1

/-- The span that an action gives is a member of the context. -/
theorem span_apply (t : Tracing) (ha : a.Plain) {spanId : Text} (h : a.span? = some spanId) :
    getMember? spanKey (t.apply ids a).members = some (.text spanId) := by
  cases a with
  | set traceId given extra =>
    obtain rfl := Option.some.inj h
    exact getMember?_extra (fun m hm => (ha m hm).2) _
  | updateSpan given =>
    obtain rfl := Option.some.inj h
    exact getMember?_setMember spanKey spanKey _ _
  | bindEngine _ | read => exact absurd h (by simp [Action.span?])

/-- An action that gives no span leaves the one that is shown, given or fresh. -/
theorem shownSpan_apply (hids : ∀ n, ids.trace n ≠ []) (t : Tracing) (h : a.span? = none) :
    (t.apply ids a).shownSpan ids = t.shownSpan ids := by
  cases a with
  | set _ _ _ | updateSpan _ => exact absurd h (by simp [Action.span?])
  | bindEngine engine =>
    have htraced : (t.bindEngine ids engine).isTraced = true :=
      isTraced_apply (a := .bindEngine engine) hids t trivial
    rw [apply, shownSpan_of_traced htraced]
    exact getMember?_setMember engineKey spanKey _ _
  | read =>
    obtain ⟨htraced, hmembers⟩ := read_spec hids t
    rw [apply, shownSpan_of_traced htraced, hmembers]
    rfl

/-- The engine stays bound until another is, or the context is set anew. -/
theorem engine?_apply (ht : t.isTraced = true) (hset : a.isSet = false) (hbind : a.engine? = none) :
    (t.apply ids a).engine? = t.engine? := by
  cases a with
  | set _ _ _ => exact absurd hset (by simp [Action.isSet])
  | bindEngine _ => exact absurd hbind (by simp [Action.engine?])
  | updateSpan spanId => exact getMember?_setMember spanKey engineKey _ _
  | read => rw [apply, read_of_traced ht]

/-! ## Runs -/

theorem run_append (ids : IdSource) (t : Tracing) (before after : List Action) :
    t.run ids (before ++ after) = (t.run ids before).run ids after :=
  List.foldl_append

/-- What every action of a run keeps, the run keeps. -/
theorem run_induction {P : Tracing → Prop} (ht : P t)
    (h : ∀ u, P u → ∀ a ∈ actions, P (u.apply ids a)) : P (t.run ids actions) :=
  List.foldlRecOn actions (apply ids) ht h

/-- From no context, the actions alone tell whether there is a trace id. -/
theorem isTraced_run_iff (hids : ∀ n, ids.trace n ≠ []) (h : ∀ a ∈ actions, a.Plain) :
    (start.run ids actions).isTraced = true ↔ LeavesTrace actions := by
  induction actions using List.reverseRecOn with
  | nil => exact iff_of_false Bool.false_ne_true not_leavesTrace_nil
  | append_singleton actions a ih =>
    obtain ⟨hactions, ha⟩ := List.forall_mem_append.1 h
    have hlast : start.run ids (actions ++ [a]) = (start.run ids actions).apply ids a :=
      run_append ids start actions [a]
    rw [hlast, isTraced_apply hids _ (ha a List.mem_cons_self), leavesTrace_concat, ← ih hactions]
    simp

theorem shownSpan_run (hids : ∀ n, ids.trace n ≠ []) (h : ∀ a ∈ actions, a.span? = none) :
    (t.run ids actions).shownSpan ids = t.shownSpan ids :=
  run_induction (P := fun u => u.shownSpan ids = t.shownSpan ids) rfl fun u hu a ha =>
    (shownSpan_apply hids u (h a ha)).trans hu

/-- A run that sets no context and binds no engine leaves the one that is bound. -/
theorem engine?_run (hids : ∀ n, ids.trace n ≠ []) (hplain : ∀ a ∈ actions, a.Plain)
    (h : ∀ a ∈ actions, a.isSet = false ∧ a.engine? = none) (ht : t.isTraced = true) :
    (t.run ids actions).isTraced = true ∧ (t.run ids actions).engine? = t.engine? := by
  refine run_induction (P := fun u => u.isTraced = true ∧ u.engine? = t.engine?) ⟨ht, rfl⟩ ?_
  rintro u ⟨hu, hengine⟩ a ha
  obtain ⟨hset, hbind⟩ := h a ha
  refine ⟨?_, (engine?_apply hu hset hbind).trans hengine⟩
  rw [isTraced_apply hids u (hplain a ha), hset, hu]
  simp

/-- After any actions, reading the context shows the span that was given last exactly where there was
a trace id behind that, and a fresh one where there was none. It shows the engine that was bound last
unless the context was set anew after that. -/
theorem run_correlates (hids : ∀ n, ids.trace n ≠ []) (hplain : ∀ a ∈ actions, a.Plain) :
    (∀ before a after spanId, actions = before ++ a :: after → a.span? = some spanId →
      (∀ b ∈ after, b.span? = none) →
      (LeavesTrace (before ++ [a]) →
        (start.run ids actions).shownSpan ids = some (.text spanId)) ∧
      (¬ LeavesTrace (before ++ [a]) →
        ∃ n, (start.run ids actions).shownSpan ids = some (.text (ids.span n)))) ∧
    ∀ before engine after, actions = before ++ .bindEngine engine :: after →
      (∀ b ∈ after, b.isSet = false ∧ b.engine? = none) →
      (start.run ids actions).shownEngine ids = some (.text engine) := by
  refine ⟨?_, ?_⟩
  · rintro before a after spanId rfl hspan hafter
    rw [List.append_cons before a after] at hplain ⊢
    obtain ⟨hfront, -⟩ := List.forall_mem_append.1 hplain
    have ha : a.Plain := hfront a (by simp)
    rw [run_append, shownSpan_run hids hafter, ← isTraced_run_iff hids hfront]
    refine ⟨fun htraced => ?_, fun htraced => ⟨_, shownSpan_of_not_traced htraced⟩⟩
    rw [shownSpan_of_traced htraced, run_append]
    exact span_apply _ ha hspan
  · rintro before engine after rfl hafter
    rw [List.append_cons before _ after] at hplain ⊢
    obtain ⟨hfront, hrest⟩ := List.forall_mem_append.1 hplain
    have htraced : (start.run ids (before ++ [.bindEngine engine])).isTraced = true :=
      (isTraced_run_iff hids hfront).2 (leavesTrace_concat.2 (.inl rfl))
    obtain ⟨hlast, hengine⟩ := engine?_run hids hrest hafter htraced
    rw [run_append, shownEngine_of_traced hlast, hengine, run_append]
    exact getMember?_setMember engineKey engineKey _ _

/-- A span is given to a context with an empty trace id, is lost when an engine is bound, and the next
one stays. -/
theorem run_correlates_second_span :
    let ids : IdSource := ⟨fun _ => List.replicate 32 'a', fun _ => List.replicate 16 'b'⟩
    let actions : List Action := [.set [] "1f".toList [(engineKey, .text "old".toList)],
      .bindEngine "notes".toList, .updateSpan "2e".toList, .read]
    ((∀ n, ids.trace n ≠ []) ∧ ∀ a ∈ actions, a.Plain) ∧
      (∃ n, (start.run ids (actions.take 2)).shownSpan ids = some (.text (ids.span n))) ∧
      (start.run ids actions).shownSpan ids = some (.text "2e".toList) ∧
      (start.run ids actions).shownEngine ids = some (.text "notes".toList) := by
  intro ids actions
  have hids : ∀ n, ids.trace n ≠ [] := by simp [ids]
  have hset : Action.Plain (.set [] "1f".toList [(engineKey, .text "old".toList)]) :=
    List.forall_mem_singleton.2 ⟨by decide, by decide⟩
  have hplain : ∀ a ∈ actions, a.Plain :=
    List.forall_mem_cons.2 ⟨hset, by simp [Action.Plain]⟩
  have hlost : ¬ LeavesTrace [.set [] "1f".toList [(engineKey, .text "old".toList)]] := by
    rw [← isTraced_run_iff hids (List.forall_mem_singleton.2 hset)]
    exact Bool.false_ne_true
  obtain ⟨hfirst, -⟩ :=
    run_correlates hids fun a ha => hplain a (List.mem_of_mem_take (i := 2) ha)
  obtain ⟨hspan, hengine⟩ := run_correlates hids hplain
  refine ⟨⟨hids, hplain⟩, ?_, ?_, ?_⟩
  · refine (hfirst [] _ [.bindEngine "notes".toList] "1f".toList rfl rfl ?_).2 hlost
    exact List.forall_mem_singleton.2 rfl
  · refine (hspan (actions.take 2) (.updateSpan "2e".toList) [.read] _ rfl rfl ?_).1 ?_
    · exact List.forall_mem_singleton.2 rfl
    · exact ⟨actions.take 1, .bindEngine "notes".toList, [.updateSpan "2e".toList], rfl, rfl,
        List.forall_mem_singleton.2 rfl⟩
  · refine hengine (actions.take 1) "notes".toList [.updateSpan "2e".toList, .read] rfl ?_
    exact List.forall_mem_cons.2 ⟨⟨rfl, rfl⟩, List.forall_mem_singleton.2 ⟨rfl, rfl⟩⟩

/-- A span that is given before there is a trace id is not what reading shows. -/
theorem untraced_span_lost :
    let ids : IdSource := ⟨fun _ => List.replicate 32 'a', fun _ => List.replicate 16 'b'⟩
    (start.run ids [.updateSpan "u".toList]).shownSpan ids =
        some (.text (List.replicate 16 'b')) ∧
      List.replicate 16 'b' ≠ "u".toList := by
  exact ⟨rfl, by decide⟩

end NoteQuery.Tracing

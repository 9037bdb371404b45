import NoteQuery.Proofs.Query.Trees
import NoteQuery.Proofs.Search.Checks

/-!
# Cancelling an evaluation

An evaluation visits every node of its tree once at most and looks at every note once for a leaf, so
that one check for each node and one for each note at each node is as many as it can make
(`Evaluation.endsWithin_ids`). Whoever allows for all the checks that it makes gets the answer of
the evaluation that nobody cancels, and whoever allows for fewer gets none
(`Evaluation.exists_allOrNothing`).
-/

set_option autoImplicit false

namespace NoteQuery

namespace Evaluation

variable {α β : Type}

/-! ## Bounds on checks -/

/-- Whether a step that nobody cancels comes to an end, after so many checks at most. -/
def EndsWithin (limit : Nat) (step : Option Nat → Eval α) : Prop :=
  ∃ result checks warnings, Ends step result checks warnings ∧ checks ≤ limit ∧
    result ≠ .error .cancelled

theorem EndsWithin.mono {k l : Nat} {step : Option Nat → Eval α} (h : EndsWithin k step)
    (hle : k ≤ l) : EndsWithin l step := by
  obtain ⟨result, checks, ws, hends, hchecks, hresult⟩ := h
  exact ⟨result, checks, ws, hends, Nat.le_trans hchecks hle, hresult⟩

theorem endsWithin_pure (a : α) : EndsWithin 0 fun _ => (pure a : Eval α) :=
  ⟨.ok a, 0, [], .pure a, Nat.le_refl 0, nofun⟩

theorem endsWithin_throw {halt : Halt} (h : halt ≠ .cancelled) :
    EndsWithin 0 fun _ => (MonadExcept.throw halt : Eval α) := by
  refine ⟨.error halt, 0, [], .throw halt, Nat.le_refl 0, ?_⟩
  intro hhalt
  exact h (Except.error.inj hhalt)

/-- The bounds of steps that follow each other add up, whatever the first one comes to. -/
theorem EndsWithin.bind {e : Option Nat → Eval α} {f : Option Nat → α → Eval β} {k l : Nat}
    (he : EndsWithin k e) (hf : ∀ a, EndsWithin l fun allowance => f allowance a) :
    EndsWithin (k + l) fun allowance => e allowance >>= f allowance := by
  obtain ⟨first, checks, ws, hends, hchecks, hfirst⟩ := he
  cases first with
  | error halt =>
    refine ⟨.error halt, checks, ws, hends.bind_error f, by omega, ?_⟩
    intro hhalt
    exact hfirst (congrArg Except.error (Except.error.inj hhalt))
  | ok a =>
    obtain ⟨result, more, vs, hrest, hmore, hresult⟩ := hf a
    exact ⟨result, checks + more, ws ++ vs, hends.bind hrest, by omega, hresult⟩

theorem EndsWithin.checked {l : Nat} {e : Option Nat → Eval α} (he : EndsWithin l e) :
    EndsWithin (1 + l) fun allowance => check allowance >>= fun _ => e allowance := by
  have hcheck : EndsWithin 1 check := ⟨.ok (), 1, [], .check, Nat.le_refl 1, nofun⟩
  exact hcheck.bind fun _ => he

/-! ## Trees -/

variable {corpus : List Note} {mode : CaseMode}

theorem endsWithin_leafIds (field : Field) (value : Text) (notes : List Note) :
    EndsWithin notes.length fun allowance =>
      leafIds ⟨corpus, mode, allowance⟩ field value notes := by
  induction notes with
  | nil => exact endsWithin_pure []
  | cons note notes ih =>
    simp only [leafIds]
    have hrest := ih.bind fun rest => endsWithin_pure
      (if note.matchesLeaf mode field value then note.id :: rest else rest)
    refine hrest.checked.mono ?_
    rw [List.length_cons]
    omega

variable {room : Nat} {cs : List Tree}

theorem endsWithin_narrow (found : List Text)
    (hcs : ∀ c ∈ cs, EndsWithin (c.size * (1 + corpus.length)) fun allowance =>
      ids ⟨corpus, mode, allowance⟩ room c) :
    EndsWithin (Tree.sizeList cs * (1 + corpus.length)) fun allowance =>
      narrow ⟨corpus, mode, allowance⟩ room found cs := by
  induction cs generalizing found with
  | nil => exact (endsWithin_pure found).mono (Nat.zero_le _)
  | cons c cs ih =>
    obtain ⟨hc, hcs⟩ := List.forall_mem_cons.1 hcs
    simp only [narrow]
    split
    · exact (endsWithin_pure found).mono (Nat.zero_le _)
    · rw [Tree.sizeList, Nat.add_mul]
      apply hc.bind
      intro next
      exact ih (found.filter next.contains) hcs

theorem endsWithin_widen
    (hcs : ∀ c ∈ cs, EndsWithin (c.size * (1 + corpus.length)) fun allowance =>
      ids ⟨corpus, mode, allowance⟩ room c) :
    EndsWithin (Tree.sizeList cs * (1 + corpus.length)) fun allowance =>
      widen ⟨corpus, mode, allowance⟩ room cs := by
  induction cs with
  | nil => exact (endsWithin_pure []).mono (Nat.zero_le _)
  | cons c cs ih =>
    obtain ⟨hc, hcs⟩ := List.forall_mem_cons.1 hcs
    simp only [widen]
    rw [Tree.sizeList, Nat.add_mul]
    apply hc.bind
    intro found
    exact (ih hcs).bind fun rest => endsWithin_pure (found ++ rest)

/-- Where there is no room for a tree, its evaluation halts at once. -/
theorem endsWithin_ids_of_succ {t : Tree} {limit : Nat}
    (h : ∀ room, EndsWithin limit fun allowance => ids ⟨corpus, mode, allowance⟩ (room + 1) t)
    (room : Nat) : EndsWithin limit fun allowance => ids ⟨corpus, mode, allowance⟩ room t := by
  cases room with
  | zero =>
    have hhalt : Halt.tooTall ≠ .cancelled := nofun
    simp only [ids]
    exact (endsWithin_throw hhalt).mono (Nat.zero_le _)
  | succ room => exact h room

/-- A tree of known nodes makes one check for each node and one for each note at each node, or
fewer. -/
theorem endsWithin_ids {t : Tree} (hk : t.Known) (room : Nat) :
    EndsWithin (t.size * (1 + corpus.length)) fun allowance =>
      ids ⟨corpus, mode, allowance⟩ room t := by
  induction t generalizing room with
  | leaf field value =>
    refine endsWithin_ids_of_succ (fun room => ?_) room
    simp only [ids, Tree.size, Nat.one_mul]
    exact (endsWithin_leafIds field value corpus).checked
  | all cs ih =>
    refine endsWithin_ids_of_succ (fun room => ?_) room
    have hcs := fun c hc => ih c hc (Tree.knownList_iff.1 hk c hc) room
    rw [Tree.size, Nat.add_mul]
    cases cs with
    | nil =>
      have hhalt : Halt.noChildren ≠ .cancelled := nofun
      simp only [ids]
      exact (endsWithin_throw hhalt).checked.mono (by omega)
    | cons c cs =>
      obtain ⟨hc, hcs⟩ := List.forall_mem_cons.1 hcs
      simp only [ids]
      refine (hc.bind fun first => endsWithin_narrow first hcs).checked.mono ?_
      rw [Tree.sizeList, Nat.add_mul]
      omega
  | any cs ih =>
    refine endsWithin_ids_of_succ (fun room => ?_) room
    have hcs := fun c hc => ih c hc (Tree.knownList_iff.1 hk c hc) room
    simp only [ids, Tree.size, Nat.add_mul]
    exact (endsWithin_widen hcs).checked.mono (by omega)
  | negation c ih =>
    refine endsWithin_ids_of_succ (fun room => ?_) room
    have hc := (ih hk room).bind fun excluded => endsWithin_pure
      ((corpus.map (·.id)).filter fun id => !excluded.contains id)
    simp only [ids, Tree.size, Nat.add_mul]
    exact hc.checked.mono (by omega)
  | group c ih =>
    refine endsWithin_ids_of_succ (fun room => ?_) room
    simp only [ids, Tree.size, Nat.add_mul]
    exact (ih hk room).checked.mono (by omega)
  | absent | unknown kind => exact absurd hk id

/-! ## Evaluations -/

/-- What so many checks mean for an evaluation: whoever allows for all of them gets what the
evaluation comes to that nobody cancels, and whoever allows for fewer gets nothing, at the first
check that is not allowed for. -/
structure AllOrNothing (corpus : List Note) (mode : CaseMode) (t : Tree) (checks : Nat) : Prop where
  /-- The evaluation that nobody cancels has an answer. -/
  answers : ∃ notes, (evaluate ⟨corpus, mode, none⟩ (some t)).notes? = some notes
  covered : ∀ n, checks ≤ n →
    evaluate ⟨corpus, mode, some n⟩ (some t) = evaluate ⟨corpus, mode, none⟩ (some t) ∧
      (evaluate ⟨corpus, mode, some n⟩ (some t)).trace.checks = checks
  stopped : ∀ n, n < checks →
    (evaluate ⟨corpus, mode, some n⟩ (some t)).notes? = none ∧
      (evaluate ⟨corpus, mode, some n⟩ (some t)).trace.checks = n + 1

theorem allOrNothing_of_ends {t : Tree} {result : Except Halt (List Text)} {checks : Nat}
    {ws : List Warning} (hcorpus : corpus ≠ [])
    (h : Ends (fun allowance => ids ⟨corpus, mode, allowance⟩ Tree.heightLimit t) result checks ws)
    (hresult : result ≠ .error .cancelled) : AllOrNothing corpus mode t checks := by
  have hne : corpus.isEmpty ≠ true := fun hempty => hcorpus (List.isEmpty_iff.1 hempty)
  have hpass : ∀ allowance, (∀ n, allowance = some n → 0 + checks ≤ n) →
      ids ⟨corpus, mode, allowance⟩ Tree.heightLimit t .empty = (result, ⟨0 + checks, [] ++ ws⟩) :=
    fun allowance hallowance => h.passes allowance .empty hallowance
  have hnone := hpass none nofun
  constructor
  · simp only [evaluate, if_neg hne, hnone]
    match result with
    | .ok found => exact ⟨_, rfl⟩
    | .error .noChildren | .error .tooTall => exact ⟨_, rfl⟩
    | .error .cancelled => exact absurd rfl hresult
  · intro n hle
    have hsome := hpass (some n) fun m hm => by
      have := Option.some.inj hm
      omega
    simp only [evaluate, if_neg hne, hnone, hsome, true_and]
    match result with
    | .ok found => exact Nat.zero_add checks
    | .error .noChildren | .error .tooTall => exact Nat.zero_add checks
    | .error .cancelled => exact absurd rfl hresult
  · intro n hlt
    obtain ⟨left, hstop⟩ := h.stops n .empty (Nat.zero_le n) ((Nat.zero_add checks).symm ▸ hlt)
    simp only [evaluate, if_neg hne, hstop, and_self]

/-- The evaluation of a tree of known nodes is all or nothing, at a number of checks that its size
and that of the corpus bound. -/
theorem exists_allOrNothing (corpus : List Note) (mode : CaseMode) {t : Tree} (hk : t.Known) :
    ∃ checks, checks ≤ t.size * (1 + corpus.length) ∧ AllOrNothing corpus mode t checks := by
  by_cases hcorpus : corpus = []
  · subst hcorpus
    exact ⟨0, Nat.zero_le _, ⟨[], rfl⟩, fun _ _ => ⟨rfl, rfl⟩, fun n hlt => absurd hlt (by omega)⟩
  · obtain ⟨result, checks, ws, hends, hle, hresult⟩ :=
      @endsWithin_ids corpus mode t hk Tree.heightLimit
    exact ⟨checks, hle, allOrNothing_of_ends hcorpus hends hresult⟩

end Evaluation

end NoteQuery

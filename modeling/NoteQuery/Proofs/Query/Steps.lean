import NoteQuery.Query.Parser

/-!
# What a token can do

`Parser.Takes` lists what one token can do to the parser, guards included, and
`Parser.step_eq_reading_iff` says that the list is complete. `Parser.TakesAll` is the run over
several tokens. A list of tokens with a mark for the end is read successfully exactly if the tokens
in front of the mark are taken one by one and the mark ends what is then left
(`Parser.run_eq_ok_iff`).
-/

set_option autoImplicit false

namespace NoteQuery.Parser

/-! ## One token -/

namespace Situation

/-- Whether a group or a negation was opened just now, so that the depth is still to be checked. -/
def deepens : Situation → Bool
  | .opened _ | .negated _ => true
  | _ => false

def awaitsValue : Situation → Bool
  | .marked _ _ => true
  | _ => false

end Situation

/-- Whether an operand can begin. -/
def State.Admits (s : State) : Prop :=
  s.after.awaitsValue = false ∧ (s.after.deepens = true → s.depth ≤ Grammar.maxNesting)

/-- Only behind a field marker, a parenthesis or a NOT there is something to check. -/
theorem State.admits_of_after {s : State} (hvalue : s.after.awaitsValue = false)
    (hdepth : s.after.deepens = false) : s.Admits := by
  refine ⟨hvalue, fun hdeepens => ?_⟩
  rw [hdepth] at hdeepens
  exact absurd hdeepens Bool.false_ne_true

theorem State.admits_of_operand {s : State} (h : s.after = .operand) : s.Admits :=
  State.admits_of_after (by rw [h]; rfl) (by rw [h]; rfl)

/-- What a token does to a state that can take it. -/
inductive Takes (s : State) (t : Token) : State → Prop
  | negation : s.Admits → t.kind = .not → Takes s t { s with
      scope := { s.scope with negations := s.scope.negations + 1 }
      after := .negated t.position }
  | opening : s.Admits → t.kind = .opening →
      Takes s t ⟨(t.position, s.scope) :: s.outer, .empty, .opened t.position⟩
  | marker {f : Field} : s.Admits → t.kind = .field → Field.ofName? t.value = some f →
      Takes s t { s with after := .marked f t.position }
  | value : s.Admits → t.kind.isValue = true → t.value ≠ [] →
      Takes s t (s.complete (.leaf .anywhere t.value))
  | fieldValue {f : Field} {p : Nat} : s.after = .marked f p → t.kind.isValue = true →
      t.value ≠ [] → Takes s t (s.complete (.leaf f t.value))
  | and : s.after = .operand → t.kind = .and →
      Takes s t { s with after := .joined .and t.position }
  | or : s.after = .operand → t.kind = .or →
      Takes s t { s with scope := s.scope.branch, after := .joined .or t.position }
  | closing {p : Nat} {scope : Scope} {outer : List (Nat × Scope)} : s.after = .operand →
      t.kind = .closing → s.outer = (p, scope) :: outer →
      Takes s t (State.complete ⟨outer, scope, .operand⟩ (.group s.scope.tree))

theorem leaf_eq_reading_iff {s s' : State} {f : Field} {t : Token} :
    leaf s f t = .ok (.reading s') ↔ t.value ≠ [] ∧ s' = s.complete (.leaf f t.value) := by
  unfold leaf
  split
  · rename_i h
    simp [List.isEmpty_iff.1 h]
  · rename_i h
    have hne : t.value ≠ [] := fun h' => h (List.isEmpty_iff.2 h')
    simp [hne, eq_comm]

theorem step_eq_begin {s : State} {t : Token} (hs : s.Admits) (ht : t.kind.startsOperand = true) :
    step s t = begin s t := by
  obtain ⟨hvalue, hdepth⟩ := hs
  have hscope : beginScope s t = begin s t := by
    unfold beginScope
    split <;> simp_all [Token.Kind.startsOperand]
  unfold step
  cases hafter : s.after with
  | start =>
    have hdone : t.kind ≠ .done := by rintro h; simp [h, Token.Kind.startsOperand] at ht
    simp only [hdone, if_false, hscope]
  | opened p =>
    have hclosing : t.kind ≠ .closing := by rintro h; simp [h, Token.Kind.startsOperand] at ht
    have hle := hdepth (by simp [hafter, Situation.deepens])
    simp only [hclosing, if_false, hscope, guardDepth, if_neg (Nat.not_lt.2 hle)]
  | negated p =>
    have hle := hdepth (by simp [hafter, Situation.deepens])
    simp only [ht, if_true, guardDepth, if_neg (Nat.not_lt.2 hle)]
  | joined c p => simp only [ht, if_true]
  | marked f p => simp [hafter, Situation.awaitsValue] at hvalue
  | operand =>
    simp only [afterOperand]
    cases hk : t.kind <;> simp_all [Token.Kind.startsOperand]

theorem takes_of_begin {s s' : State} {t : Token} (hs : s.Admits)
    (h : begin s t = .ok (.reading s')) : Takes s t s' := by
  unfold begin at h
  split at h
  · rename_i hk
    simp only [Except.ok.injEq, Progress.reading.injEq] at h
    exact h ▸ .negation hs hk
  · rename_i hk
    simp only [Except.ok.injEq, Progress.reading.injEq] at h
    exact h ▸ .opening hs hk
  · rename_i hk
    split at h
    · rename_i f hf
      simp only [Except.ok.injEq, Progress.reading.injEq] at h
      exact h ▸ .marker hs hk hf
    · simp at h
  · rename_i hk
    obtain ⟨hne, rfl⟩ := leaf_eq_reading_iff.1 h
    exact .value hs (by simp [hk, Token.Kind.isValue]) hne
  · rename_i hk
    obtain ⟨hne, rfl⟩ := leaf_eq_reading_iff.1 h
    exact .value hs (by simp [hk, Token.Kind.isValue]) hne
  all_goals simp at h

theorem begin_of_beginScope {s s' : State} {t : Token}
    (h : beginScope s t = .ok (.reading s')) : begin s t = .ok (.reading s') := by
  unfold beginScope at h
  split at h
  · simp at h
  · simp at h
  · exact h

theorem of_guardDepth {s s' : State} {p : Nat} {next : Except ParseError Progress}
    (h : guardDepth s p next = .ok (.reading s')) :
    s.depth ≤ Grammar.maxNesting ∧ next = .ok (.reading s') := by
  unfold guardDepth at h
  split at h
  · simp at h
  · rename_i hle
    exact ⟨Nat.not_lt.1 hle, h⟩

theorem takes_of_afterOperand {s s' : State} {t : Token} (hs : s.after = .operand)
    (h : afterOperand s t = .ok (.reading s')) : Takes s t s' := by
  have hadmits := State.admits_of_operand hs
  unfold afterOperand at h
  split at h
  · rename_i hk
    simp only [Except.ok.injEq, Progress.reading.injEq] at h
    exact h ▸ .and hs hk
  · rename_i hk
    simp only [Except.ok.injEq, Progress.reading.injEq] at h
    exact h ▸ .or hs hk
  · rename_i hk
    split at h
    · simp at h
    · rename_i hne
      simp only [Except.ok.injEq, Progress.reading.injEq] at h
      exact h ▸ .closing hs hk hne
  · split at h <;> simp at h
  all_goals exact takes_of_begin hadmits h

theorem takes_of_step {s s' : State} {t : Token} (h : step s t = .ok (.reading s')) :
    Takes s t s' := by
  unfold step at h
  split at h
  · rename_i hafter
    have hadmits : s.Admits :=
      State.admits_of_after (by rw [hafter]; rfl) (by rw [hafter]; rfl)
    split at h
    · simp at h
    · exact takes_of_begin hadmits (begin_of_beginScope h)
  · rename_i hafter
    split at h
    · simp at h
    · obtain ⟨hle, hbegin⟩ := of_guardDepth h
      exact takes_of_begin ⟨by simp [hafter, Situation.awaitsValue], fun _ => hle⟩
        (begin_of_beginScope hbegin)
  · rename_i hafter
    split at h
    · obtain ⟨hle, hbegin⟩ := of_guardDepth h
      exact takes_of_begin ⟨by simp [hafter, Situation.awaitsValue], fun _ => hle⟩ hbegin
    · simp at h
  · rename_i hafter
    have hadmits : s.Admits :=
      State.admits_of_after (by rw [hafter]; rfl) (by rw [hafter]; rfl)
    split at h
    · exact takes_of_begin hadmits h
    · simp at h
  · rename_i hafter
    split at h
    · rename_i hvalue
      obtain ⟨hne, rfl⟩ := leaf_eq_reading_iff.1 h
      exact .fieldValue hafter hvalue hne
    · simp at h
  · rename_i hafter
    exact takes_of_afterOperand hafter h

theorem step_of_takes {s s' : State} {t : Token} (h : Takes s t s') :
    step s t = .ok (.reading s') := by
  cases h with
  | negation hs hk => rw [step_eq_begin hs (by simp [hk, Token.Kind.startsOperand]), begin, hk]
  | opening hs hk => rw [step_eq_begin hs (by simp [hk, Token.Kind.startsOperand]), begin, hk]
  | marker hs hk hf =>
    rw [step_eq_begin hs (by simp [hk, Token.Kind.startsOperand]), begin, hk]
    simp only [hf]
  | value hs hk hne =>
    have hleaf : leaf s .anywhere t = .ok (.reading (s.complete (.leaf .anywhere t.value))) :=
      leaf_eq_reading_iff.2 ⟨hne, rfl⟩
    cases hkind : t.kind <;> simp [hkind, Token.Kind.isValue] at hk
    · rw [step_eq_begin hs (by simp [hkind, Token.Kind.startsOperand]), begin, hkind, hleaf]
    · rw [step_eq_begin hs (by simp [hkind, Token.Kind.startsOperand]), begin, hkind, hleaf]
  | fieldValue hafter hk hne =>
    simp only [step, hafter, hk, if_true]
    exact leaf_eq_reading_iff.2 ⟨hne, rfl⟩
  | and hafter hk => simp only [step, hafter, afterOperand, hk]
  | or hafter hk => simp only [step, hafter, afterOperand, hk]
  | closing hafter hk houter => simp only [step, hafter, afterOperand, hk, houter]

/-- What one token does, in full. -/
theorem step_eq_reading_iff {s s' : State} {t : Token} :
    step s t = .ok (.reading s') ↔ Takes s t s' :=
  ⟨takes_of_step, step_of_takes⟩

/-! ## The mark for the end -/

/-- Whether a step reads on or refuses its token, so that it does not end the query. -/
def Decides (r : Except ParseError Progress) : Prop :=
  (∃ s, r = .ok (.reading s)) ∨ ∃ e, r = .error e

theorem decides_leaf (s : State) (f : Field) (t : Token) : Decides (leaf s f t) := by
  unfold leaf
  split
  · exact .inr ⟨_, rfl⟩
  · exact .inl ⟨_, rfl⟩

theorem decides_begin (s : State) (t : Token) : Decides (begin s t) := by
  unfold begin
  split
  · exact .inl ⟨_, rfl⟩
  · exact .inl ⟨_, rfl⟩
  · split
    · exact .inl ⟨_, rfl⟩
    · exact .inr ⟨_, rfl⟩
  · exact decides_leaf s .anywhere t
  · exact decides_leaf s .anywhere t
  all_goals exact .inr ⟨_, rfl⟩

theorem decides_beginScope (s : State) (t : Token) : Decides (beginScope s t) := by
  unfold beginScope
  split
  · exact .inr ⟨_, rfl⟩
  · exact .inr ⟨_, rfl⟩
  · exact decides_begin s t

theorem decides_guardDepth {s : State} {p : Nat} {next : Except ParseError Progress}
    (h : Decides next) : Decides (guardDepth s p next) := by
  unfold guardDepth
  split
  · exact .inr ⟨_, rfl⟩
  · exact h

/-- A step reads on, refuses its token, or completes a query in which nothing is open. -/
theorem step_cases (s : State) (t : Token) :
    Decides (step s t) ∨ t.kind = .done ∧
      (s.after = .start ∧ step s t = .ok (.done none) ∨
        s.after = .operand ∧ s.outer = [] ∧ step s t = .ok (.done (some s.scope.tree))) := by
  unfold step
  split
  · rename_i hafter
    split
    · rename_i hdone
      exact .inr ⟨hdone, .inl ⟨hafter, rfl⟩⟩
    · exact .inl (decides_beginScope s t)
  · split
    · exact .inl (.inr ⟨_, rfl⟩)
    · exact .inl (decides_guardDepth (decides_beginScope s t))
  · split
    · exact .inl (decides_guardDepth (decides_begin s t))
    · exact .inl (.inr ⟨_, rfl⟩)
  · split
    · exact .inl (decides_begin s t)
    · exact .inl (.inr ⟨_, rfl⟩)
  · split
    · exact .inl (decides_leaf s _ t)
    · exact .inl (.inr ⟨_, rfl⟩)
  · rename_i hafter
    unfold afterOperand
    split
    · exact .inl (.inl ⟨_, rfl⟩)
    · exact .inl (.inl ⟨_, rfl⟩)
    · split
      · exact .inl (.inr ⟨_, rfl⟩)
      · exact .inl (.inl ⟨_, rfl⟩)
    · rename_i hdone
      split
      · rename_i houter
        exact .inr ⟨hdone, .inr ⟨hafter, houter, rfl⟩⟩
      · exact .inl (.inr ⟨_, rfl⟩)
    all_goals exact .inl (decides_begin s t)

/-- Only the mark for the end completes a query, and it does so where nothing is open. -/
theorem step_eq_done_iff {s : State} {t : Token} {root : Option Tree} :
    step s t = .ok (.done root) ↔ t.kind = .done ∧
      (s.after = .start ∧ root = none ∨
        s.after = .operand ∧ s.outer = [] ∧ root = some s.scope.tree) := by
  constructor
  · intro h
    rcases step_cases s t with
      (⟨s', h'⟩ | ⟨e, h'⟩) | ⟨hdone, ⟨hafter, h'⟩ | ⟨hafter, houter, h'⟩⟩
    · simp [h'] at h
    · simp [h'] at h
    · simp only [h', Except.ok.injEq, Progress.done.injEq] at h
      exact ⟨hdone, .inl ⟨hafter, h.symm⟩⟩
    · simp only [h', Except.ok.injEq, Progress.done.injEq] at h
      exact ⟨hdone, .inr ⟨hafter, houter, h.symm⟩⟩
  · rintro ⟨hdone, ⟨hafter, rfl⟩ | ⟨hafter, houter, rfl⟩⟩
    · simp only [step, hafter, hdone, if_true]
    · simp only [step, hafter, afterOperand, hdone, houter]

/-- No state goes on behind the mark for the end. -/
theorem not_takes_done {s s' : State} {t : Token} (ht : t.kind = .done) : ¬ Takes s t s' := by
  intro h
  cases h <;> simp_all [Token.Kind.isValue]

/-- Once a token was taken, the query has begun. -/
theorem Takes.after_ne_start {s s' : State} {t : Token} (h : Takes s t s') : s'.after ≠ .start := by
  cases h <;> simp [State.complete]

/-! ## Several tokens -/

/-- What several tokens do to a state that can take them one by one. -/
inductive TakesAll : State → List Token → State → Prop
  | nil {s : State} : TakesAll s [] s
  /-- The first token comes first. -/
  | cons {s s' s'' : State} {t : Token} {ts : List Token} :
      Takes s t s' → TakesAll s' ts s'' → TakesAll s (t :: ts) s''

theorem TakesAll.append {s s' s'' : State} {ts us : List Token} (h : TakesAll s ts s')
    (h' : TakesAll s' us s'') : TakesAll s (ts ++ us) s'' := by
  induction h with
  | nil => exact h'
  | cons ht _ ih => exact .cons ht (ih h')

theorem Takes.all {s s' : State} {t : Token} (h : Takes s t s') : TakesAll s [t] s' :=
  .cons h .nil

theorem TakesAll.after_ne_start {s s' : State} {ts : List Token} (h : TakesAll s ts s')
    (hs : s.after ≠ .start) : s'.after ≠ .start := by
  induction h with
  | nil => exact hs
  | cons ht _ ih => exact ih ht.after_ne_start

/-- The mark for the end is never among the tokens taken. -/
theorem TakesAll.kind_ne_done {s s' : State} {ts : List Token} (h : TakesAll s ts s') :
    ∀ t ∈ ts, t.kind ≠ .done := by
  induction h with
  | nil => simp
  | cons ht _ ih => exact List.forall_mem_cons.2 ⟨fun hdone => not_takes_done hdone ht, ih⟩

theorem TakesAll.run {s s' : State} {ts rest : List Token} (h : TakesAll s ts s') :
    run s (ts ++ rest) = Parser.run s' rest := by
  induction h with
  | nil => rfl
  | cons ht _ ih =>
    rw [List.cons_append, Parser.run, step_of_takes ht]
    exact ih

/-- Where a run succeeds, all tokens in front of a mark for the end are taken. -/
theorem exists_takesAll_of_run {s : State} {ts us : List Token} {root : Option Tree}
    (hts : ∀ t ∈ ts, t.kind ≠ .done) (h : run s (ts ++ us) = .ok root) :
    ∃ s', TakesAll s ts s' := by
  induction ts generalizing s with
  | nil => exact ⟨s, .nil⟩
  | cons t ts ih =>
    obtain ⟨ht, hts⟩ := List.forall_mem_cons.1 hts
    rw [List.cons_append, run] at h
    cases hstep : step s t with
    | error e => simp [hstep] at h
    | ok progress =>
      cases progress with
      | done root => exact absurd (step_eq_done_iff.1 hstep).1 ht
      | reading next =>
        simp only [hstep] at h
        obtain ⟨s', hall⟩ := ih hts h
        exact ⟨s', .cons (takes_of_step hstep) hall⟩

/-- A run succeeds exactly if every token in front of the mark for the end is taken and the mark
completes what is then left. -/
theorem run_eq_ok_iff {s : State} {ts rest : List Token} {e : Token} {root : Option Tree}
    (hts : ∀ t ∈ ts, t.kind ≠ .done) (he : e.kind = .done) :
    run s (ts ++ e :: rest) = .ok root ↔
      ∃ s', TakesAll s ts s' ∧ step s' e = .ok (.done root) := by
  constructor
  · intro h
    obtain ⟨s', hall⟩ := exists_takesAll_of_run hts h
    refine ⟨s', hall, ?_⟩
    rw [hall.run, run] at h
    cases hstep : step s' e with
    | error e' => simp [hstep] at h
    | ok progress =>
      cases progress with
      | reading s'' => exact absurd (takes_of_step hstep) (not_takes_done he)
      | done root' => simp_all
  · rintro ⟨s', hall, hdone⟩
    rw [hall.run, run, hdone]

/-- What stands behind the mark for the end has no influence. -/
theorem run_append_done {s : State} {ts rest : List Token} {e : Token} (he : e.kind = .done) :
    run s (ts ++ e :: rest) = run s (ts ++ [e]) := by
  induction ts generalizing s with
  | nil =>
    simp only [List.nil_append, run]
    cases hstep : step s e with
    | error e' => rfl
    | ok progress =>
      cases progress with
      | reading s' => exact absurd (takes_of_step hstep) (not_takes_done he)
      | done root => rfl
  | cons t ts ih => simp only [List.cons_append, run, ih]

end NoteQuery.Parser

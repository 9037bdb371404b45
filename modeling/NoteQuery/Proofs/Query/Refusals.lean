import NoteQuery.Proofs.Query.Steps

/-!
# What the parser refuses

`Parser.Refuses` lists what can be wrong with a token, guards included, and
`Parser.step_eq_error_iff` says that the list is complete, so that it stands to `Parser.Takes` as an
error to a success. A run fails where a token is refused, or where the tokens run out
(`Parser.run_eq_error_iff`), which they never do where a mark for the end is among them
(`Parser.cause_of_run`).

What is blamed is the refused token or one that is still open. The parser keeps the offsets of the
latter (`Parser.State.marks`), and all of them are offsets of tokens that it has taken
(`Parser.TakesAll.marks`); so every refusal is about the offset of a token
(`Parser.Refuses.position_mem`).
-/

set_option autoImplicit false

namespace NoteQuery

def Connective.kind : Connective → Token.Kind
  | .and => .and
  | .or => .or

namespace Parser

variable {s s' : State} {t : Token} {ts : List Token} {e : ParseError}

/-! ## One token -/

/-- Whether a whole disjunction has to begin. -/
def Situation.beginsScope : Situation → Bool
  | .start | .opened _ => true
  | _ => false

/-- What is wrong with a token that a state cannot take. -/
inductive Refuses (s : State) (t : Token) : ParseError → Prop
  | leading {c : Connective} : s.after.beginsScope = true → s.Admits → t.kind = c.kind →
      Refuses s t ⟨.missingLeft c, t.position⟩
  | trailing {c : Connective} {p : Nat} : s.after = .joined c p →
      t.kind.startsOperand = false → Refuses s t ⟨.missingRight c, p⟩
  | idle {p : Nat} : s.after = .negated p → t.kind.startsOperand = false →
      Refuses s t ⟨.missingOperand, p⟩
  | deepNegation {p : Nat} : s.after = .negated p → t.kind.startsOperand = true →
      Grammar.maxNesting < s.depth → Refuses s t ⟨.nestedTooDeeply, p⟩
  | deepGroup {p : Nat} : s.after = .opened p → t.kind ≠ .closing →
      Grammar.maxNesting < s.depth → Refuses s t ⟨.nestedTooDeeply, p⟩
  | emptyGroup {p : Nat} : s.after = .opened p → t.kind = .closing →
      Refuses s t ⟨.emptyGroup, p⟩
  | unmatchedClosing : s.after = .start ∨ s.after = .operand ∧ s.outer = [] →
      t.kind = .closing → Refuses s t ⟨.unmatchedClosing, t.position⟩
  | unmatchedOpening {p : Nat} {scope : Scope} {outer : List (Nat × Scope)} :
      s.after = .operand → t.kind = .done → s.outer = (p, scope) :: outer →
      Refuses s t ⟨.unmatchedOpening, p⟩
  /-- The tokens end where a group begins. -/
  | unexpectedEnd {p : Nat} : s.after = .opened p → s.Admits → t.kind = .done →
      Refuses s t ⟨.unexpectedEnd, t.position⟩
  | unknownField : s.Admits → t.kind = .field → Field.ofName? t.value = none →
      Refuses s t ⟨.unknownField t.value, t.position⟩
  | missingValue {f : Field} {p : Nat} : s.after = .marked f p → t.kind.isValue = false →
      Refuses s t ⟨.missingValue f.marker, p⟩
  /-- There is nothing between two quotes. -/
  | emptyPhrase : s.Admits ∨ s.after.awaitsValue = true → t.kind.isValue = true →
      t.value = [] → Refuses s t ⟨.emptyPhrase, t.position⟩

theorem leaf_eq_error_iff {f : Field} :
    leaf s f t = .error e ↔ t.value = [] ∧ e = ⟨.emptyPhrase, t.position⟩ := by
  unfold leaf
  split
  · rename_i h
    simp [List.isEmpty_iff.1 h, eq_comm]
  · rename_i h
    simp [show t.value ≠ [] from fun h' => h (List.isEmpty_iff.2 h')]

theorem guardDepth_eq_error_iff {p : Nat} {next : Except ParseError Progress} :
    guardDepth s p next = .error e ↔
      Grammar.maxNesting < s.depth ∧ e = ⟨.nestedTooDeeply, p⟩ ∨
        s.depth ≤ Grammar.maxNesting ∧ next = .error e := by
  unfold guardDepth
  split
  · rename_i h
    simp [h, Nat.not_le.2 h, eq_comm]
  · rename_i h
    simp [h, Nat.not_lt.1 h]

/-- Where an operand can begin, a token that begins one is refused for its value alone. -/
theorem refuses_of_begin (hs : s.Admits) (ht : t.kind.startsOperand = true)
    (h : begin s t = .error e) : Refuses s t e := by
  unfold begin at h
  split at h
  · exact absurd h (by simp)
  · exact absurd h (by simp)
  · rename_i hk
    split at h
    · exact absurd h (by simp)
    · rename_i hf
      obtain rfl := Except.error.inj h
      exact .unknownField hs hk hf
  · rename_i hk
    obtain ⟨hvalue, rfl⟩ := leaf_eq_error_iff.1 h
    exact .emptyPhrase (.inl hs) (by simp [hk, Token.Kind.isValue]) hvalue
  · rename_i hk
    obtain ⟨hvalue, rfl⟩ := leaf_eq_error_iff.1 h
    exact .emptyPhrase (.inl hs) (by simp [hk, Token.Kind.isValue]) hvalue
  all_goals
    rename_i hk
    simp [hk, Token.Kind.startsOperand] at ht

theorem refuses_of_beginScope (hs : s.Admits) (hscope : s.after.beginsScope = true)
    (hclosing : t.kind = .closing → s.after = .start)
    (hdone : t.kind = .done → ∃ p, s.after = .opened p) (h : beginScope s t = .error e) :
    Refuses s t e := by
  unfold beginScope at h
  split at h
  · rename_i hk
    obtain rfl := Except.error.inj h
    exact .leading (c := .or) hscope hs hk
  · rename_i hk
    obtain rfl := Except.error.inj h
    exact .leading (c := .and) hscope hs hk
  · rename_i hor hand
    cases hstarts : t.kind.startsOperand with
    | true => exact refuses_of_begin hs hstarts h
    | false =>
      cases hk : t.kind with
      | closing =>
        simp only [begin, hk] at h
        obtain rfl := Except.error.inj h
        exact .unmatchedClosing (.inl (hclosing hk)) hk
      | done =>
        simp only [begin, hk] at h
        obtain rfl := Except.error.inj h
        obtain ⟨p, hafter⟩ := hdone hk
        exact .unexpectedEnd hafter hs hk
      | or => exact absurd hk hor
      | and => exact absurd hk hand
      | _ => simp [hk, Token.Kind.startsOperand] at hstarts

theorem refuses_of_afterOperand (hafter : s.after = .operand) (h : afterOperand s t = .error e) :
    Refuses s t e := by
  have hadmits : s.Admits := by
    simp [State.Admits, hafter, Situation.awaitsValue, Situation.deepens]
  unfold afterOperand at h
  split at h
  · exact absurd h (by simp)
  · exact absurd h (by simp)
  · rename_i hk
    split at h
    · rename_i houter
      obtain rfl := Except.error.inj h
      exact .unmatchedClosing (.inr ⟨hafter, houter⟩) hk
    · exact absurd h (by simp)
  · rename_i hk
    split at h
    · exact absurd h (by simp)
    · rename_i houter
      obtain rfl := Except.error.inj h
      exact .unmatchedOpening hafter hk houter
  all_goals
    rename_i hk
    exact refuses_of_begin hadmits (by simp [hk, Token.Kind.startsOperand]) h

theorem refuses_of_step (h : step s t = .error e) : Refuses s t e := by
  unfold step at h
  split at h
  · rename_i hafter
    have hadmits : s.Admits := by
      simp [State.Admits, hafter, Situation.awaitsValue, Situation.deepens]
    split at h
    · exact absurd h (by simp)
    · rename_i hdone
      exact refuses_of_beginScope hadmits (by simp [hafter, Situation.beginsScope])
        (fun _ => hafter) (fun hk => absurd hk hdone) h
  · rename_i p hafter
    split at h
    · rename_i hk
      obtain rfl := Except.error.inj h
      exact .emptyGroup hafter hk
    · rename_i hclosing
      rcases guardDepth_eq_error_iff.1 h with ⟨hdeep, rfl⟩ | ⟨hle, hbegin⟩
      · exact .deepGroup hafter hclosing hdeep
      · have hadmits : s.Admits := ⟨by simp [hafter, Situation.awaitsValue], fun _ => hle⟩
        exact refuses_of_beginScope hadmits (by simp [hafter, Situation.beginsScope])
          (fun hk => absurd hk hclosing) (fun _ => ⟨p, hafter⟩) hbegin
  · rename_i hafter
    split at h
    · rename_i hstarts
      rcases guardDepth_eq_error_iff.1 h with ⟨hdeep, rfl⟩ | ⟨hle, hbegin⟩
      · exact .deepNegation hafter hstarts hdeep
      · exact refuses_of_begin ⟨by simp [hafter, Situation.awaitsValue], fun _ => hle⟩ hstarts
          hbegin
    · rename_i hstarts
      obtain rfl := Except.error.inj h
      exact .idle hafter (by simpa using hstarts)
  · rename_i hafter
    split at h
    · rename_i hstarts
      have hadmits : s.Admits := by
        simp [State.Admits, hafter, Situation.awaitsValue, Situation.deepens]
      exact refuses_of_begin hadmits hstarts h
    · rename_i hstarts
      obtain rfl := Except.error.inj h
      exact .trailing hafter (by simpa using hstarts)
  · rename_i hafter
    split at h
    · rename_i hvalue
      obtain ⟨hempty, rfl⟩ := leaf_eq_error_iff.1 h
      exact .emptyPhrase (.inr (by simp [hafter, Situation.awaitsValue])) hvalue hempty
    · rename_i hvalue
      obtain rfl := Except.error.inj h
      exact .missingValue hafter (by simpa using hvalue)
  · rename_i hafter
    exact refuses_of_afterOperand hafter h

/-- Where a disjunction can begin, the token decides as far as it does not end or close. -/
theorem step_eq_beginScope (hscope : s.after.beginsScope = true) (hs : s.Admits)
    (hclosing : t.kind = .closing → s.after = .start)
    (hdone : t.kind = .done → ∃ p, s.after = .opened p) : step s t = beginScope s t := by
  unfold step
  cases hafter : s.after with
  | start =>
    have hk : t.kind ≠ .done := by
      intro hk
      obtain ⟨p, hopened⟩ := hdone hk
      rw [hafter] at hopened
      exact absurd hopened (by simp)
    simp only [hk, if_false]
  | opened p =>
    have hk : t.kind ≠ .closing := by
      intro hk
      have hstart := hclosing hk
      rw [hafter] at hstart
      exact absurd hstart (by simp)
    have hle := hs.2 (by simp [hafter, Situation.deepens])
    simp only [hk, if_false, guardDepth, if_neg (Nat.not_lt.2 hle)]
  | _ => simp [hafter, Situation.beginsScope] at hscope

theorem step_of_refuses (h : Refuses s t e) : step s t = .error e := by
  cases h with
  | @leading c hscope hs hk =>
    rw [step_eq_beginScope hscope hs (by cases c <;> simp [hk, Connective.kind])
      (by cases c <;> simp [hk, Connective.kind])]
    cases c <;> simp only [beginScope, hk, Connective.kind]
  | trailing hafter hk => simp only [step, hafter, hk, Bool.false_eq_true, if_false]
  | idle hafter hk => simp only [step, hafter, hk, Bool.false_eq_true, if_false]
  | deepNegation hafter hk hdeep =>
    simp only [step, hafter, hk, if_true, guardDepth, if_pos hdeep]
  | deepGroup hafter hk hdeep => simp only [step, hafter, hk, if_false, guardDepth, if_pos hdeep]
  | emptyGroup hafter hk => simp only [step, hafter, hk, if_true]
  | unmatchedClosing hwhere hk =>
    rcases hwhere with hafter | ⟨hafter, houter⟩
    · simp only [step, hafter, hk, beginScope, begin, reduceCtorEq, if_false]
    · simp only [step, hafter, hk, afterOperand, houter]
  | unmatchedOpening hafter hk houter => simp only [step, hafter, hk, afterOperand, houter]
  | @unexpectedEnd p hafter hs hk =>
    rw [step_eq_beginScope (by simp [hafter, Situation.beginsScope]) hs (by simp [hk])
      (fun _ => ⟨p, hafter⟩)]
    simp only [beginScope, begin, hk]
  | unknownField hs hk hf =>
    rw [step_eq_begin hs (by simp [hk, Token.Kind.startsOperand]), begin, hk]
    simp only [hf]
  | missingValue hafter hk => simp only [step, hafter, hk, Bool.false_eq_true, if_false]
  | emptyPhrase hwhere hk hempty =>
    rcases hwhere with hs | hafter
    · cases hkind : t.kind with
      | term | phrase =>
        rw [step_eq_begin hs (by simp [hkind, Token.Kind.startsOperand]), begin, hkind]
        exact leaf_eq_error_iff.2 ⟨hempty, rfl⟩
      | _ => simp [hkind, Token.Kind.isValue] at hk
    · cases hmarked : s.after with
      | marked f p =>
        simp only [step, hmarked, hk, if_true]
        exact leaf_eq_error_iff.2 ⟨hempty, rfl⟩
      | _ => simp [hmarked, Situation.awaitsValue] at hafter

/-- What is wrong with one token, in full. -/
theorem step_eq_error_iff : step s t = .error e ↔ Refuses s t e :=
  ⟨refuses_of_step, step_of_refuses⟩

/-! ## Several tokens -/

/-- A run fails exactly if some token is refused by the state that the tokens in front of it lead
to, or if all tokens are taken and none of them marks the end. -/
theorem run_eq_error_iff :
    run s ts = .error e ↔
      (∃ us t vs s', ts = us ++ t :: vs ∧ TakesAll s us s' ∧ Refuses s' t e) ∨
        (∃ s', TakesAll s ts s') ∧ e = ⟨.unended, 0⟩ := by
  constructor
  · intro h
    induction ts generalizing s with
    | nil =>
      rw [run] at h
      exact .inr ⟨⟨s, .nil⟩, (Except.error.inj h).symm⟩
    | cons t ts ih =>
      rw [run] at h
      cases hstep : step s t with
      | error e' =>
        simp only [hstep] at h
        obtain rfl := Except.error.inj h
        exact .inl ⟨[], t, ts, s, rfl, .nil, refuses_of_step hstep⟩
      | ok progress =>
        cases progress with
        | done root => simp [hstep] at h
        | reading next =>
          simp only [hstep] at h
          have htakes := takes_of_step hstep
          rcases ih h with ⟨us, u, vs, s', rfl, hall, hrefuses⟩ | ⟨⟨s', hall⟩, rfl⟩
          · exact .inl ⟨t :: us, u, vs, s', rfl, .cons htakes hall, hrefuses⟩
          · exact .inr ⟨⟨s', .cons htakes hall⟩, rfl⟩
  · intro h
    rcases h with ⟨us, t, vs, s', rfl, hall, hrefuses⟩ | ⟨⟨s', hall⟩, rfl⟩
    · rw [hall.run, run, step_of_refuses hrefuses]
    · have hrun : run s (ts ++ []) = run s' [] := hall.run
      rw [List.append_nil] at hrun
      rw [hrun, run]

/-- A token that is refused is there. -/
theorem Refuses.cause_ne_unended (h : Refuses s t e) : e.cause ≠ .unended := by
  cases h <;> simp

/-- Tokens with a mark for the end never run out. -/
theorem cause_of_run {rest : List Token} {d : Token} (hd : d.kind = .done)
    (h : run s (ts ++ d :: rest) = .error e) : e.cause ≠ .unended := by
  rcases run_eq_error_iff.1 h with ⟨us, t, vs, s', -, -, hrefuses⟩ | ⟨⟨s', hall⟩, -⟩
  · exact hrefuses.cause_ne_unended
  · exact absurd hd (hall.kind_ne_done d (List.mem_append_right ts List.mem_cons_self))

/-! ## Offsets -/

/-- The offset of the token that is to blame if nothing comes of it. -/
def Situation.mark? : Situation → Option Nat
  | .opened p | .negated p | .joined _ p | .marked _ p => some p
  | .start | .operand => none

/-- The offsets of tokens that a state can still blame. -/
def State.marks (s : State) : List Nat :=
  s.after.mark?.toList ++ s.outer.map Prod.fst

/-- A state blames what it could blame before or the token that it has just taken. -/
theorem Takes.marks (h : Takes s t s') : ∀ p ∈ s'.marks, p ∈ t.position :: s.marks := by
  have houter : ∀ p, p ∈ s.outer.map Prod.fst → p ∈ t.position :: s.marks :=
    fun p hp => List.mem_cons_of_mem _ (List.mem_append_right _ hp)
  intro p hp
  cases h with
  | negation _ _ | marker _ _ _ | and _ _ | or _ _ =>
    rcases List.mem_cons.1 hp with rfl | hp
    · exact List.mem_cons_self
    · exact houter p hp
  | opening _ _ =>
    simp only [State.marks, Situation.mark?, Option.toList_some, List.map_cons,
      List.singleton_append, List.mem_cons] at hp
    rcases hp with rfl | rfl | hp
    · exact List.mem_cons_self
    · exact List.mem_cons_self
    · exact houter p hp
  | value _ _ _ | fieldValue _ _ _ => exact houter p hp
  | @closing q scope outer _ _ hclosed =>
    refine houter p ?_
    rw [hclosed]
    exact List.mem_cons_of_mem q hp

/-- After several tokens, a state blames what it could blame before or one of them. -/
theorem TakesAll.marks (h : TakesAll s ts s') :
    ∀ p ∈ s'.marks, p ∈ s.marks ∨ ∃ t ∈ ts, t.position = p := by
  induction h with
  | nil => exact fun p hp => .inl hp
  | cons ht _ ih =>
    intro p hp
    rcases ih p hp with hmark | ⟨u, hu, hposition⟩
    · rcases List.mem_cons.1 (ht.marks p hmark) with rfl | hmark
      · exact .inr ⟨_, List.mem_cons_self, rfl⟩
      · exact .inl hmark
    · exact .inr ⟨u, List.mem_cons_of_mem _ hu, hposition⟩

/-- What is refused is blamed on the token itself or on one that is still open. -/
theorem Refuses.position_mem (h : Refuses s t e) : e.position ∈ t.position :: s.marks := by
  cases h with
  | leading _ _ _ | unmatchedClosing _ _ | unexpectedEnd _ _ _ | unknownField _ _ _
  | emptyPhrase _ _ _ => exact List.mem_cons_self
  | trailing hafter _ | idle hafter _ | deepNegation hafter _ _ | deepGroup hafter _ _
  | emptyGroup hafter _ | missingValue hafter _ =>
    simp [State.marks, hafter, Situation.mark?]
  | unmatchedOpening _ _ houter => simp [State.marks, houter]

/-- The offset of every refusal is that of a token. -/
theorem exists_position_of_run (h : run .initial ts = .error e) (hended : e.cause ≠ .unended) :
    ∃ t ∈ ts, t.position = e.position := by
  rcases run_eq_error_iff.1 h with ⟨us, t, vs, s, rfl, hall, hrefuses⟩ | ⟨-, rfl⟩
  · rcases List.mem_cons.1 hrefuses.position_mem with hposition | hmark
    · exact ⟨t, by simp, hposition.symm⟩
    · rcases hall.marks _ hmark with hinitial | ⟨u, hu, hposition⟩
      · exact absurd hinitial (by simp [State.marks, State.initial, Situation.mark?])
      · exact ⟨u, List.mem_append_left _ hu, hposition⟩
  · exact absurd rfl hended

/-- No keyword is ever refused as one that stands where an operand has to begin. -/
theorem Refuses.cause_ne_unexpectedOperator (h : Refuses s t e) (k : Token.Kind) :
    e.cause ≠ .unexpectedOperator k := by
  cases h <;> simp

end Parser

end NoteQuery

import NoteQuery.Proofs.Query.Derivations
import NoteQuery.Proofs.Query.Steps

/-!
# How the parser reads what the grammar derives

The tokens of an operand take the parser from any state in which an operand can begin to the state
that has completed its tree, unless its groups and negations go beyond the depth that the parser
allows; then the tokens are refused for that reason, whatever follows them
(`Grammar.Operand.reads`). Only the nesting of the tree decides between the two, so it does not
matter for how much room the grammar derived the phrase. Within the room of a query all tokens are
taken (`Grammar.Disjunction.takesAll`).
-/

set_option autoImplicit false

namespace NoteQuery

open Grammar (Operand Conjunction Disjunction)

/-! ## Depth -/

theorem Tree.negations_negation (n : Nat) (t : Tree) :
    Tree.negations n (.negation t) = Tree.negations (n + 1) t := by
  induction n with
  | zero => rfl
  | succ n ih => simp only [Tree.negations, ih]

namespace Parser

/-- How many groups and negations are open outside the innermost scope. -/
def enclosed : List (Nat × Scope) → Nat
  | [] => 0
  | (_, scope) :: outer => scope.negations + 1 + enclosed outer

theorem enclosed_cons (p : Nat) (s : Scope) (outer : List (Nat × Scope)) :
    enclosed ((p, s) :: outer) = s.negations + 1 + enclosed outer := rfl

theorem foldl_eq_enclosed (outer : List (Nat × Scope)) (n : Nat) :
    outer.foldl (fun n o => n + 1 + o.2.negations) n = n + enclosed outer := by
  induction outer generalizing n with
  | nil => rfl
  | cons o outer ih =>
    rw [List.foldl_cons, ih, enclosed_cons]
    omega

theorem State.depth_eq (s : State) : s.depth = s.scope.negations + enclosed s.outer :=
  foldl_eq_enclosed s.outer s.scope.negations

/-- The state that has completed the factors of a conjunction. -/
def State.gather (s : State) (factors : List Tree) : State :=
  ⟨s.outer, { s.scope with factors := factors.reverse ++ s.scope.factors }, .operand⟩

theorem State.complete_eq_gather {s : State} (h : s.scope.negations = 0) (t : Tree) :
    s.complete t = s.gather [t] := by
  simp [State.complete, Scope.complete, State.gather, h, Tree.negations]

theorem State.depth_gather (s : State) (factors : List Tree) :
    (s.gather factors).depth = s.depth := by
  simp only [State.depth_eq, State.gather]

end Parser

/-! ## From the grammar to the parser -/

namespace Parser

/-- Whether some tokens are refused as nested too deeply, whatever follows them. -/
def State.RefusesDepth (s : State) (ts : List Token) : Prop :=
  ∃ p, ∀ rest, run s (ts ++ rest) = .error ⟨.nestedTooDeeply, p⟩

/-- What the tokens of a phrase with a given nesting do to a state: they are all taken, or there is
no room for the groups and negations of the phrase and the tokens are refused for that. -/
def State.Reads (s : State) (nesting : Nat) (ts : List Token) (s' : State) : Prop :=
  TakesAll s ts s' ∨ Grammar.maxNesting < s.depth + nesting ∧ s.RefusesDepth ts

namespace State

variable {s s' s'' : State} {t : Token} {ts us : List Token} {m n : Nat}

theorem RefusesDepth.append_right (h : s.RefusesDepth ts) (us : List Token) :
    s.RefusesDepth (ts ++ us) := by
  obtain ⟨p, hrefused⟩ := h
  refine ⟨p, fun rest => ?_⟩
  rw [List.append_assoc]
  exact hrefused (us ++ rest)

theorem RefusesDepth.append_left (h : s'.RefusesDepth us) (hts : TakesAll s ts s') :
    s.RefusesDepth (ts ++ us) := by
  obtain ⟨p, hrefused⟩ := h
  refine ⟨p, fun rest => ?_⟩
  rw [List.append_assoc, hts.run]
  exact hrefused rest

theorem Reads.mono (h : s.Reads m ts s') (hle : m ≤ n) : s.Reads n ts s' := by
  rcases h with htakes | ⟨hdeep, hrefused⟩
  · exact .inl htakes
  · exact .inr ⟨by omega, hrefused⟩

/-- Behind a phrase come tokens that open nothing. -/
theorem Reads.append_takesAll (h : s.Reads n ts s') (hus : TakesAll s' us s'') :
    s.Reads n (ts ++ us) s'' := by
  rcases h with htakes | ⟨hdeep, hrefused⟩
  · exact .inl (htakes.append hus)
  · exact .inr ⟨hdeep, hrefused.append_right us⟩

/-- Two phrases one behind the other are no more nested than the one that is nested more. -/
theorem Reads.append (h : s.Reads m ts s') (h' : s'.Reads n us s'') (hd : s'.depth = s.depth) :
    s.Reads (max m n) (ts ++ us) s'' := by
  rcases h with htakes | ⟨hdeep, hrefused⟩
  · rcases h' with htakes' | ⟨hdeep, hrefused⟩
    · exact .inl (htakes.append htakes')
    · exact .inr ⟨by omega, hrefused.append_left htakes⟩
  · exact .inr ⟨by omega, hrefused.append_right us⟩

/-- Where an operand can begin but for the depth, its first token is refused for the depth. -/
theorem admits_or_refusesDepth (hs : s.after.awaitsValue = false)
    (ht : t.kind.startsOperand = true) :
    s.Admits ∨ Grammar.maxNesting < s.depth ∧ s.RefusesDepth [t] := by
  by_cases hadmits : s.Admits
  · exact .inl hadmits
  · have hdeep : s.after.deepens = true ∧ Grammar.maxNesting < s.depth := by
      simpa [Admits, hs] using hadmits
    refine .inr ⟨hdeep.2, ?_⟩
    have hstep : ∃ p, step s t = .error ⟨.nestedTooDeeply, p⟩ := by
      cases hafter : s.after with
      | opened p =>
        have hclosing : t.kind ≠ .closing := by
          intro hk
          simp [hk, Token.Kind.startsOperand] at ht
        refine ⟨p, ?_⟩
        simp only [step, hafter, if_neg hclosing, guardDepth, if_pos hdeep.2]
      | negated p =>
        refine ⟨p, ?_⟩
        simp only [step, hafter, if_pos ht, guardDepth, if_pos hdeep.2]
      | _ => simp [hafter, Situation.deepens] at hdeep
    obtain ⟨p, hstep⟩ := hstep
    refine ⟨p, fun rest => ?_⟩
    rw [List.singleton_append, run, hstep]

/-- The first token of an operand, and behind it tokens that stay within the nesting. -/
theorem Reads.cons (hs : s.after.awaitsValue = false) (ht : t.kind.startsOperand = true)
    (hfirst : s.Admits → Takes s t s') (hrest : s'.Reads m ts s'')
    (hd : s'.depth + m ≤ s.depth + n) : s.Reads n (t :: ts) s'' := by
  rcases admits_or_refusesDepth hs ht with hadmits | ⟨hdeep, hrefused⟩
  · have htakes := (hfirst hadmits).all
    rcases hrest with hall | ⟨hdeep, hrefused⟩
    · exact .inl (htakes.append hall)
    · exact .inr ⟨by omega, hrefused.append_left htakes⟩
  · exact .inr ⟨by omega, hrefused.append_right ts⟩

theorem depth_complete_le (s : State) (t : Tree) : (s.complete t).depth ≤ s.depth := by
  rw [depth_eq, depth_eq]
  simp only [complete, Scope.complete]
  omega

end State

end Parser

namespace Grammar

open NoteQuery.Parser

mutual

/-- The tokens of an operand lead to the state that has completed its tree, if there is room. -/
theorem Operand.reads : ∀ {room : Nat} {ts : List Token} {t : Tree}, Operand room ts t →
    ∀ {s : State}, s.after.awaitsValue = false → s.Reads t.nesting ts (s.complete t)
  | _, _, _, @Operand.value _ v hk hne, s, hs => by
    have hstarts : v.kind.startsOperand = true := by
      cases hkind : v.kind <;> simp_all [Token.Kind.isValue, Token.Kind.startsOperand]
    exact .cons (m := 0) hs hstarts (fun hadmits => .value hadmits hk hne) (.inl .nil)
      (s.depth_complete_le _)
  | _, _, _, @Operand.field _ m v f hm hf hk hne, s, hs => by
    have hstarts : m.kind.startsOperand = true := by rw [hm]; rfl
    exact .cons (m := 0) hs hstarts (fun hadmits => .marker hadmits hm hf)
      (.inl (Takes.fieldValue rfl hk hne).all) (Nat.le_refl _)
  | _, _, _, @Operand.negation room n ts t hn hop, s, hs => by
    have hstarts : n.kind.startsOperand = true := by rw [hn]; rfl
    have hrest := hop.reads (s := { s with
      scope := { s.scope with negations := s.scope.negations + 1 }
      after := .negated n.position }) rfl
    have hcomplete : State.complete { s with
        scope := { s.scope with negations := s.scope.negations + 1 }
        after := .negated n.position } t = s.complete (.negation t) := by
      simp only [State.complete, Scope.complete, Tree.negations_negation]
    rw [hcomplete] at hrest
    refine .cons hs hstarts (fun hadmits => .negation hadmits hn) hrest ?_
    rw [State.depth_eq, State.depth_eq, Tree.nesting]
    simp only
    omega
  | _, _, _, @Operand.group room o c ts alternatives ho hdis hc, s, hs => by
    have hstarts : o.kind.startsOperand = true := by rw [ho]; rfl
    obtain ⟨scope, htree, hinner⟩ := hdis.reads
      (s := ⟨(o.position, s.scope) :: s.outer, .empty, .opened o.position⟩) rfl rfl rfl
    have hclosed : scope.tree = .anyOf alternatives := congrArg Tree.anyOf htree
    have hlast : Takes ⟨(o.position, s.scope) :: s.outer, scope, .operand⟩ c
        (State.complete ⟨s.outer, s.scope, .operand⟩ (.group scope.tree)) := .closing rfl hc rfl
    rw [hclosed] at hlast
    refine .cons hs hstarts (fun hadmits => .opening hadmits ho)
      (hinner.append_takesAll hlast.all) ?_
    rw [State.depth_eq, State.depth_eq, enclosed_cons, Tree.nesting, Tree.nesting_anyOf]
    simp only [Scope.empty]
    omega

/-- The tokens of a conjunction add its factors to the alternative under way. -/
theorem Conjunction.reads : ∀ {room : Nat} {ts : List Token} {factors : List Tree},
    Conjunction room ts factors → ∀ {s : State}, s.after.awaitsValue = false →
      s.scope.negations = 0 → s.Reads (Tree.nestingList factors) ts (s.gather factors)
  | _, _, _, .one hop, s, hs, hn => by
    rw [← State.complete_eq_gather hn]
    exact (hop.reads hs).mono (Nat.le_max_left _ _)
  | _, _, _, @Conjunction.beside room ts us t factors hop hcon, s, hs, hn => by
    have h := hop.reads hs
    rw [State.complete_eq_gather hn] at h
    have h' := hcon.reads (s := s.gather [t]) rfl hn
    have hsame : (s.gather [t]).gather factors = s.gather (t :: factors) := by simp [State.gather]
    exact hsame ▸ h.append h' (s.depth_gather [t])
  | _, _, _, @Conjunction.joined room ts us a t factors hop ha hcon, s, hs, hn => by
    have h := hop.reads hs
    rw [State.complete_eq_gather hn] at h
    have hjoined := h.append_takesAll (Takes.and rfl ha).all
    have h' := hcon.reads (s := { s.gather [t] with after := .joined .and a.position }) rfl hn
    have hsame : ({ s.gather [t] with after := .joined .and a.position } : State).gather factors =
        s.gather (t :: factors) := by simp [State.gather]
    have hall := hjoined.append h' (s.depth_gather [t])
    rw [hsame, List.append_assoc] at hall
    exact hall

/-- The tokens of a disjunction lead to a scope that holds its alternatives, if there is room. -/
theorem Disjunction.reads : ∀ {room : Nat} {ts : List Token} {alternatives : List Tree},
    Disjunction room ts alternatives → ∀ {s : State}, s.after.awaitsValue = false →
      s.scope.negations = 0 → s.scope.factors = [] →
      ∃ scope : Scope,
        (scope.alternative :: scope.alternatives).reverse =
          s.scope.alternatives.reverse ++ alternatives ∧
        s.Reads (Tree.nestingList alternatives) ts ⟨s.outer, scope, .operand⟩
  | _, _, _, @Disjunction.one room ts factors hcon, s, hs, hn, hf => by
    refine ⟨(s.gather factors).scope, ?_, (hcon.reads hs hn).mono ?_⟩
    · simp [State.gather, Scope.alternative, hf]
    · rw [Tree.nestingList, Tree.nesting_allOf]
      exact Nat.le_max_left _ _
  | _, _, _, @Disjunction.joined room ts us o factors alternatives hcon ho hdis,
      s, hs, hn, hf => by
    have h := (hcon.reads hs hn).append_takesAll (Takes.or rfl ho).all
    obtain ⟨scope, hscope, h'⟩ := hdis.reads (s := { s.gather factors with
      scope := (s.gather factors).scope.branch
      after := .joined .or o.position }) rfl hn rfl
    refine ⟨scope, ?_, ?_⟩
    · rw [hscope]
      simp [State.gather, Scope.branch, Scope.alternative, hf]
    · have hall := h.append h' (s.depth_gather factors)
      rw [List.append_assoc, ← Tree.nesting_allOf] at hall
      exact hall

end

/-- The tokens of a query are all taken. -/
theorem Disjunction.takesAll {ts : List Token} {alternatives : List Tree}
    (h : Disjunction maxNesting ts alternatives) :
    ∃ scope : Scope, scope.tree = .anyOf alternatives ∧
      TakesAll .initial ts ⟨[], scope, .operand⟩ := by
  obtain ⟨scope, htree, hreads⟩ := h.reads (s := .initial) rfl rfl rfl
  refine ⟨scope, congrArg Tree.anyOf htree, ?_⟩
  rcases hreads with htakes | ⟨hdeep, -⟩
  · exact htakes
  · have hroom : Tree.nestingList alternatives ≤ maxNesting :=
      Tree.nestingList_le_iff.2 fun a ha => (h.shaped.2 a ha).1.nesting_le
    have hdepth : State.initial.depth = 0 := rfl
    omega

end Grammar

end NoteQuery

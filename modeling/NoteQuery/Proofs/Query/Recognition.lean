import NoteQuery.Proofs.Query.Reading
import NoteQuery.Proofs.Query.Refusals

/-!
# The parser recognises the grammar

The two directions between the parser and `Grammar`. Forward, the parser takes the tokens of a
query (`Grammar.Disjunction.takesAll`). Backward, whatever state the parser is in, the tokens that
it has taken are tied to the grammar by `Parser.State.Holds`, which every step preserves
(`Parser.State.Holds.step`). Together they say that `Tree.ofTokens?` returns exactly the trees of
the grammar (`Tree.ofTokens?_spec`), and so that the grammar is unambiguous
(`Grammar.Derives.unique`). What the grammar derives for a query with more room than a query has is
refused as nested too deeply, and for no other reason (`Grammar.Disjunction.run_eq`).
-/

set_option autoImplicit false

namespace NoteQuery

open Grammar (Operand Conjunction Disjunction)

namespace Grammar

/-! ## Phrases that are still open

The relations of the grammar grow a phrase at its front; the parser grows it at its end. -/

theorem Operand.negations {room : Nat} {ns ts : List Token} {t : Tree} (h : Operand room ts t)
    (hns : ∀ n ∈ ns, n.kind = .not) :
    Operand (room + ns.length) (ns ++ ts) (Tree.negations ns.length t) := by
  induction ns with
  | nil => exact h
  | cons n ns ih =>
    obtain ⟨hn, hns⟩ := List.forall_mem_cons.1 hns
    exact .negation hn (ih hns)

theorem Conjunction.beside_end {room : Nat} {ts us : List Token} {t : Tree} {factors : List Tree}
    (h : Conjunction room ts factors) (hop : Operand room us t) :
    Conjunction room (ts ++ us) (factors ++ [t]) := by
  match h with
  | .one h => exact .beside h (.one hop)
  | .beside h h' =>
    rw [List.append_assoc]
    exact .beside h (h'.beside_end hop)
  | .joined h ha h' =>
    rw [List.append_assoc]
    exact .joined h ha (h'.beside_end hop)

theorem Conjunction.joined_end {room : Nat} {ts us : List Token} {a : Token} {t : Tree}
    {factors : List Tree} (h : Conjunction room ts factors) (ha : a.kind = .and)
    (hop : Operand room us t) : Conjunction room (ts ++ a :: us) (factors ++ [t]) := by
  match h with
  | .one h => exact .joined h ha (.one hop)
  | .beside h h' =>
    rw [List.append_assoc]
    exact .beside h (h'.joined_end ha hop)
  | .joined h ha' h' =>
    rw [List.append_assoc]
    exact .joined h ha' (h'.joined_end ha hop)

/-- The tokens of complete alternatives, each with the OR behind it, and their trees, last first. -/
inductive Branches (room : Nat) : List Token → List Tree → Prop
  | none : Branches room [] []
  | more {ts us : List Token} {o : Token} {alternatives factors : List Tree} :
      Branches room ts alternatives → Conjunction room us factors → o.kind = .or →
        Branches room (ts ++ (us ++ [o])) (.allOf factors :: alternatives)

/-- The tokens of an alternative that another factor will extend, and its factors, last first. -/
inductive Factors (room : Nat) : List Token → List Tree → Prop
  | none : Factors room [] []
  | some {ts : List Token} {factors : List Tree} :
      Conjunction room ts factors.reverse → Factors room ts factors
  /-- Another factor can stand behind an AND. -/
  | joined {ts : List Token} {a : Token} {factors : List Tree} :
      Conjunction room ts factors.reverse → a.kind = .and → Factors room (ts ++ [a]) factors

theorem Branches.disjunction {room : Nat} {ts us : List Token} {alternatives others : List Tree}
    (h : Branches room ts alternatives) (hdis : Disjunction room us others) :
    Disjunction room (ts ++ us) (alternatives.reverse ++ others) := by
  induction h generalizing us others with
  | none => exact hdis
  | more _ hcon ho ih =>
    have h := ih (.joined hcon ho hdis)
    simpa using h

theorem Factors.conjunction {room : Nat} {ts us : List Token} {t : Tree} {factors : List Tree}
    (h : Factors room ts factors) (hop : Operand room us t) :
    Conjunction room (ts ++ us) (t :: factors).reverse := by
  cases h with
  | none => exact .one hop
  | some hcon =>
    rw [List.reverse_cons]
    exact hcon.beside_end hop
  | joined hcon ha =>
    rw [List.reverse_cons, List.append_assoc]
    exact hcon.joined_end ha hop

end Grammar

namespace Parser

/-- The tokens of a scope in which an operand is due, under the negations that wait for it. -/
def Scope.Open (room : Nat) (ts : List Token) (s : Scope) : Prop :=
  ∃ bs fs ns, ts = bs ++ (fs ++ ns) ∧ Grammar.Branches room bs s.alternatives ∧
    Grammar.Factors room fs s.factors ∧ ns.length = s.negations ∧ ∀ n ∈ ns, n.kind = .not

/-- The tokens of a scope that ends with an operand. -/
def Scope.Closed (room : Nat) (ts : List Token) (s : Scope) : Prop :=
  ∃ bs fs, ts = bs ++ fs ∧ Grammar.Branches room bs s.alternatives ∧
    Conjunction room fs s.factors.reverse ∧ s.negations = 0

namespace Scope

variable {room : Nat} {ts us : List Token} {t : Token} {s : Scope}

theorem open_empty : Scope.empty.Open room [] :=
  ⟨[], [], [], rfl, .none, .none, rfl, by simp⟩

/-- Another operand can stand beside the last one. -/
theorem Closed.open (h : s.Closed room ts) : s.Open room ts := by
  obtain ⟨bs, fs, rfl, hbs, hfs, hn⟩ := h
  exact ⟨bs, fs, [], by simp, hbs, .some hfs, hn.symm, by simp⟩

theorem Closed.and (h : s.Closed room ts) (ht : t.kind = .and) : s.Open room (ts ++ [t]) := by
  obtain ⟨bs, fs, rfl, hbs, hfs, hn⟩ := h
  exact ⟨bs, fs ++ [t], [], by simp, hbs, .joined hfs ht, hn.symm, by simp⟩

theorem Closed.or (h : s.Closed room ts) (ht : t.kind = .or) : s.branch.Open room (ts ++ [t]) := by
  obtain ⟨bs, fs, rfl, hbs, hfs, hn⟩ := h
  exact ⟨bs ++ (fs ++ [t]), [], [], by simp, .more hbs hfs ht, .none, hn.symm, by simp⟩

theorem Open.not (h : s.Open room ts) (ht : t.kind = .not) :
    Scope.Open room (ts ++ [t]) { s with negations := s.negations + 1 } := by
  obtain ⟨bs, fs, ns, rfl, hbs, hfs, hn, hns⟩ := h
  refine ⟨bs, fs, ns ++ [t], by simp, hbs, hfs, by simp [hn], ?_⟩
  intro n hmem
  rcases List.mem_append.1 hmem with hmem | hmem
  · exact hns n hmem
  · exact List.mem_singleton.1 hmem ▸ ht

/-- An operand completes what waits for it, if there is room for the negations. -/
theorem Open.complete {operand : Tree} (h : s.Open (room + s.negations) ts)
    (hop : Operand room us operand) :
    (s.complete operand).Closed (room + s.negations) (ts ++ us) := by
  obtain ⟨bs, fs, ns, rfl, hbs, hfs, hn, hns⟩ := h
  have hneg := hop.negations hns
  rw [hn] at hneg
  refine ⟨bs, fs ++ (ns ++ us), by simp, hbs, ?_, rfl⟩
  exact hfs.conjunction hneg

theorem Closed.disjunction (h : s.Closed room ts) :
    Disjunction room ts (s.alternative :: s.alternatives).reverse := by
  obtain ⟨bs, fs, rfl, hbs, hfs, -⟩ := h
  rw [List.reverse_cons]
  exact hbs.disjunction (.one hfs)

end Scope

/-- How many groups and negations may still be opened in the innermost scope. -/
def room (outer : List (Nat × Scope)) : Nat :=
  Grammar.maxNesting - enclosed outer

/-- The tokens of the scopes around the innermost group, outside in. -/
inductive Enclosing : List (Nat × Scope) → List Token → Prop
  | nil : Enclosing [] []
  /-- Another group was opened. -/
  | cons {outer : List (Nat × Scope)} {p : Nat} {s : Scope} {ts us : List Token} {o : Token} :
      Enclosing outer ts → s.Open (room outer) us → o.kind = .opening →
        Enclosing ((p, s) :: outer) (ts ++ (us ++ [o]))

/-- The tokens of the innermost scope, by what came last. -/
def State.Innermost (s : State) (ts : List Token) : Prop :=
  match s.after with
  | .marked f _ => ∃ us m, ts = us ++ [m] ∧ m.kind = .field ∧ Field.ofName? m.value = some f ∧
      s.scope.Open (room s.outer) us
  | .operand => s.scope.Closed (room s.outer) ts
  | _ => s.scope.Open (room s.outer) ts

/-- What the tokens taken so far have to do with the grammar. -/
structure State.Holds (s : State) (ts : List Token) : Prop where
  /-- The depth is checked before anything is made of a new group or negation. -/
  depth_le : s.after.deepens = false → s.depth ≤ Grammar.maxNesting
  /-- The tokens divide into those around the innermost group and those in it. -/
  split : ∃ us vs, ts = us ++ vs ∧ Enclosing s.outer us ∧ s.Innermost vs

namespace State

variable {s s' : State} {t : Token} {ts us vs : List Token}

theorem Admits.open (h : s.Admits) (hin : s.Innermost vs) : s.scope.Open (room s.outer) vs := by
  unfold Innermost at hin
  split at hin
  · rename_i hafter
    have := h.1
    simp [hafter, Situation.awaitsValue] at this
  · exact hin.open
  · exact hin

theorem Holds.depth_le_of_admits (h : s.Holds ts) (hs : s.Admits) :
    s.depth ≤ Grammar.maxNesting := by
  cases hdeepens : s.after.deepens with
  | true => exact hs.2 hdeepens
  | false => exact h.depth_le hdeepens

/-- An operand of the innermost scope leaves the enclosing ones as they are. -/
theorem holds_complete {ws : List Token} {operand : Tree} (hd : s.depth ≤ Grammar.maxNesting)
    (hout : Enclosing s.outer us) (hin : s.scope.Open (room s.outer) vs)
    (hop : Operand (room s.outer - s.scope.negations) ws operand) :
    (s.complete operand).Holds (us ++ (vs ++ ws)) := by
  have hdepth := s.depth_eq
  have hroom : room s.outer - s.scope.negations + s.scope.negations = room s.outer := by
    unfold room
    omega
  refine ⟨fun _ => ?_, us, vs ++ ws, rfl, hout, ?_⟩
  · rw [depth_eq]
    simp only [complete, Scope.complete]
    omega
  · rw [← hroom] at hin
    have hclosed := hin.complete hop
    rwa [hroom] at hclosed

theorem holds_initial : State.initial.Holds [] :=
  ⟨fun _ => Nat.zero_le _, [], [], rfl, .nil, Scope.open_empty⟩

/-- Every token that is taken keeps the parser tied to the grammar. -/
theorem Holds.step (h : s.Holds ts) (ht : Takes s t s') : s'.Holds (ts ++ [t]) := by
  obtain ⟨us, vs, hsplit, hout, hin⟩ := h.split
  rw [hsplit, List.append_assoc]
  have hdepth := s.depth_eq
  cases ht with
  | negation hs hk =>
    exact ⟨by simp [Situation.deepens], us, vs ++ [t], rfl, hout, (hs.open hin).not hk⟩
  | opening hs hk =>
    refine ⟨by simp [Situation.deepens], us ++ (vs ++ [t]), [], by simp, ?_, Scope.open_empty⟩
    exact .cons hout (hs.open hin) hk
  | marker hs hk hf =>
    have hle := h.depth_le_of_admits hs
    exact ⟨fun _ => hle, us, vs ++ [t], rfl, hout, vs, t, rfl, hk, hf, hs.open hin⟩
  | value hs hk hne =>
    exact holds_complete (h.depth_le_of_admits hs) hout (hs.open hin) (.value hk hne)
  | fieldValue hafter hk hne =>
    have hle := h.depth_le (by simp [hafter, Situation.deepens])
    simp only [Innermost, hafter] at hin
    obtain ⟨ws, m, rfl, hm, hf, hopen⟩ := hin
    rw [List.append_assoc]
    exact holds_complete hle hout hopen (.field hm hf hk hne)
  | and hafter hk =>
    have hle := h.depth_le (by simp [hafter, Situation.deepens])
    simp only [Innermost, hafter] at hin
    exact ⟨fun _ => hle, us, vs ++ [t], rfl, hout, hin.and hk⟩
  | or hafter hk =>
    have hle := h.depth_le (by simp [hafter, Situation.deepens])
    simp only [Innermost, hafter] at hin
    exact ⟨fun _ => hle, us, vs ++ [t], rfl, hout, hin.or hk⟩
  | @closing p scope outer hafter hk houter =>
    have hle := h.depth_le (by simp [hafter, Situation.deepens])
    simp only [Innermost, hafter] at hin
    rw [houter] at hout hin
    rw [hdepth, houter, enclosed_cons] at hle
    cases hout with
    | @cons _ _ _ xs ys o hout hopen ho =>
      -- the room of the group is what its negations and it leave of the room around it
      have hgroup : Operand (room outer - scope.negations) (o :: vs ++ [t])
          (.group s.scope.tree) := by
        have hroom : room outer - scope.negations = room ((p, scope) :: outer) + 1 := by
          unfold room
          rw [enclosed_cons]
          omega
        rw [hroom]
        exact .group ho hin.disjunction hk
      have hd : (⟨outer, scope, .operand⟩ : State).depth ≤ Grammar.maxNesting := by
        rw [State.depth_eq]
        simp only
        omega
      have hholds := holds_complete hd hout hopen hgroup
      simpa using hholds

theorem Holds.takesAll (h : s.Holds us) (hall : TakesAll s ts s') : s'.Holds (us ++ ts) := by
  induction hall generalizing us with
  | nil => simpa using h
  | cons ht _ ih => simpa using ih (h.step ht)

/-- Where nothing is open, the tokens taken are those of a query. -/
theorem Holds.derives (h : s.Holds ts) (hafter : s.after = .operand) (houter : s.outer = []) :
    Grammar.Derives ts s.scope.tree := by
  obtain ⟨us, vs, rfl, hout, hin⟩ := h.split
  simp only [Innermost, hafter] at hin
  rw [houter] at hout hin
  cases hout
  exact ⟨_, hin.disjunction, rfl⟩

end State

/-- The parser returns a tree exactly if the grammar derives the tokens in front of the mark for
the end with this tree. -/
theorem run_eq_some_iff {ts rest : List Token} {e : Token} {t : Tree}
    (hts : ∀ t ∈ ts, t.kind ≠ .done) (he : e.kind = .done) :
    run .initial (ts ++ e :: rest) = .ok (some t) ↔ Grammar.Derives ts t := by
  rw [run_eq_ok_iff hts he]
  constructor
  · rintro ⟨s, hall, hdone⟩
    have hholds : s.Holds ts := State.holds_initial.takesAll hall
    rcases (step_eq_done_iff.1 hdone).2 with ⟨-, hroot⟩ | ⟨hafter, houter, hroot⟩
    · simp at hroot
    · obtain rfl := Option.some.inj hroot
      exact hholds.derives hafter houter
  · rintro ⟨alternatives, hdis, rfl⟩
    obtain ⟨scope, htree, hall⟩ := hdis.takesAll
    exact ⟨_, hall, step_eq_done_iff.2 ⟨he, .inr ⟨rfl, rfl, by rw [htree]⟩⟩⟩

/-- The parser returns no tree exactly if there are no tokens. -/
theorem run_eq_none_iff {ts rest : List Token} {e : Token}
    (hts : ∀ t ∈ ts, t.kind ≠ .done) (he : e.kind = .done) :
    run .initial (ts ++ e :: rest) = .ok none ↔ ts = [] := by
  rw [run_eq_ok_iff hts he]
  constructor
  · rintro ⟨s, hall, hdone⟩
    rcases (step_eq_done_iff.1 hdone).2 with ⟨hafter, -⟩ | ⟨-, -, hroot⟩
    · cases hall with
      | nil => rfl
      | cons ht hall => exact absurd hafter (hall.after_ne_start ht.after_ne_start)
    · simp at hroot
  · rintro rfl
    exact ⟨_, .nil, step_eq_done_iff.2 ⟨he, .inl ⟨rfl, rfl⟩⟩⟩

end Parser

/-- What the grammar derives for any room is read as long as its nesting is within the limit.
Beyond the limit it is refused for its depth and for nothing else. -/
theorem Grammar.Disjunction.run_eq {room : Nat} {ts rest : List Token} {alternatives : List Tree}
    {e : Token} (h : Disjunction room ts alternatives) (he : e.kind = .done) :
    (Tree.anyOf alternatives).nesting ≤ maxNesting ∧
        Parser.run .initial (ts ++ e :: rest) = .ok (some (.anyOf alternatives)) ∨
      maxNesting < (Tree.anyOf alternatives).nesting ∧
        ∃ p, Parser.run .initial (ts ++ e :: rest) = .error ⟨.nestedTooDeeply, p⟩ := by
  obtain ⟨scope, hscope, hreads⟩ := h.reads (s := .initial) rfl rfl rfl
  have htree : scope.tree = .anyOf alternatives := congrArg Tree.anyOf hscope
  rcases hreads with htakes | ⟨hdeep, p, hrefused⟩
  · have hkinds := htakes.kind_ne_done
    have hrun : Parser.run .initial (ts ++ e :: rest) = .ok (some (.anyOf alternatives)) := by
      refine (Parser.run_eq_ok_iff hkinds he).2 ⟨_, htakes, ?_⟩
      exact Parser.step_eq_done_iff.2 ⟨he, .inr ⟨rfl, rfl, by rw [htree]⟩⟩
    have hderives := (Parser.run_eq_some_iff hkinds he).1 hrun
    exact .inl ⟨hderives.shaped.nesting_le, hrun⟩
  · have hdepth : Parser.State.initial.depth = 0 := rfl
    rw [hdepth, Nat.zero_add, ← Tree.nesting_anyOf] at hdeep
    exact .inr ⟨hdeep, p, hrefused (e :: rest)⟩

/-! ## Token lists with a mark for the end -/

/-- The tokens in front of the first mark for the end. -/
def Token.beforeDone (tokens : List Token) : List Token :=
  tokens.takeWhile (·.kind != .done)

namespace Token

theorem kind_ne_done_of_mem_beforeDone {tokens : List Token} :
    ∀ t ∈ beforeDone tokens, t.kind ≠ .done := by
  intro t ht
  simpa using List.all_eq_true.1 List.all_takeWhile t ht

theorem exists_eq_beforeDone_append {tokens : List Token} (h : ∃ t ∈ tokens, t.kind = .done) :
    ∃ e rest, e.kind = .done ∧ tokens = beforeDone tokens ++ e :: rest := by
  have hsplit : beforeDone tokens ++ tokens.dropWhile (·.kind != .done) = tokens :=
    List.takeWhile_append_dropWhile
  cases hrest : tokens.dropWhile (·.kind != .done) with
  | nil =>
    obtain ⟨t, ht, hdone⟩ := h
    rw [hrest, List.append_nil] at hsplit
    rw [← hsplit] at ht
    exact absurd hdone (kind_ne_done_of_mem_beforeDone t ht)
  | cons e rest =>
    have he := List.head?_dropWhile_not (·.kind != .done) tokens
    rw [hrest] at he hsplit
    exact ⟨e, rest, by simpa using he, hsplit.symm⟩

end Token

/-- No tokens have two trees. -/
theorem Grammar.Derives.unique {ts : List Token} {t u : Tree} (ht : Grammar.Derives ts t)
    (hu : Grammar.Derives ts u) : t = u := by
  obtain ⟨alternatives, hdis, htree⟩ := ht
  obtain ⟨scope, -, hall⟩ := hdis.takesAll
  have hrun : Parser.run .initial (ts ++ [⟨.done, [], 0⟩]) = .ok (some t) :=
    (Parser.run_eq_some_iff hall.kind_ne_done rfl).2 ⟨alternatives, hdis, htree⟩
  rw [(Parser.run_eq_some_iff hall.kind_ne_done rfl).2 hu] at hrun
  simpa using hrun.symm

/-- Only tokens make a phrase. -/
theorem Grammar.Disjunction.ne_nil {room : Nat} {ts : List Token} {alternatives : List Tree}
    (h : Disjunction room ts alternatives) : ts ≠ [] := by
  rintro rfl
  have hnone : Parser.run .initial ([] ++ [⟨.done, [], 0⟩]) = .ok none :=
    (Parser.run_eq_none_iff (by simp) rfl).2 rfl
  have hrun := @Disjunction.run_eq room [] [] alternatives ⟨.done, [], 0⟩ h rfl
  rcases hrun with ⟨-, hsome⟩ | ⟨-, p, herror⟩
  · rw [hnone] at hsome
    exact absurd hsome (by simp)
  · rw [hnone] at herror
    exact absurd herror (by simp)

theorem Grammar.Derives.ne_nil {ts : List Token} {t : Tree} (h : Grammar.Derives ts t) :
    ts ≠ [] := by
  obtain ⟨alternatives, hdis, -⟩ := h
  exact hdis.ne_nil

namespace Tree

/-- What the parser returns for a list of tokens with a mark for the end: no tree exactly if no
token precedes the mark, a tree exactly if the grammar derives all tokens that precede it with this
tree, and otherwise an error, which is never that the tokens have run out. What follows the first
mark has no influence. -/
theorem ofTokens?_spec {tokens : List Token} (h : ∃ t ∈ tokens, t.kind = .done) :
    (ofTokens? tokens = .ok none ↔ Token.beforeDone tokens = []) ∧
    (∀ t, ofTokens? tokens = .ok (some t) ↔ Grammar.Derives (Token.beforeDone tokens) t) ∧
    ((∃ e, ofTokens? tokens = .error e) ↔
      Token.beforeDone tokens ≠ [] ∧ ∀ t, ¬ Grammar.Derives (Token.beforeDone tokens) t) ∧
    (∀ e, ofTokens? tokens = .error e → e.cause ≠ .unended) ∧
    (∀ e rest, tokens = Token.beforeDone tokens ++ e :: rest →
      ∀ rest', ofTokens? (Token.beforeDone tokens ++ e :: rest') = ofTokens? tokens) := by
  obtain ⟨e, rest, he, hsplit⟩ := Token.exists_eq_beforeDone_append h
  have hkinds := @Token.kind_ne_done_of_mem_beforeDone tokens
  have hnone : ofTokens? tokens = .ok none ↔ Token.beforeDone tokens = [] := by
    rw [← @Parser.run_eq_none_iff _ rest _ hkinds he, ← hsplit]
    rfl
  have hsome : ∀ t, ofTokens? tokens = .ok (some t) ↔
      Grammar.Derives (Token.beforeDone tokens) t := by
    intro t
    rw [← @Parser.run_eq_some_iff _ rest _ _ hkinds he, ← hsplit]
    rfl
  refine ⟨hnone, hsome, ⟨?_, ?_⟩, ?_, ?_⟩
  · rintro ⟨error, herror⟩
    refine ⟨fun hnil => ?_, fun t ht => ?_⟩
    · simp [hnone.2 hnil] at herror
    · simp [(hsome t).2 ht] at herror
  · rintro ⟨hne, hderives⟩
    cases hresult : ofTokens? tokens with
    | error error => exact ⟨error, rfl⟩
    | ok root =>
      cases root with
      | none => exact absurd (hnone.1 hresult) hne
      | some t => exact absurd ((hsome t).1 hresult) (hderives t)
  · intro error herror
    rw [hsplit] at herror
    exact Parser.cause_of_run he herror
  · intro e' rest'' hsplit' rest'
    -- the mark in this division is the one that was found above
    have hmark := List.append_cancel_left (hsplit.symm.trans hsplit')
    obtain ⟨rfl, rfl⟩ := List.cons.inj hmark
    calc ofTokens? (Token.beforeDone tokens ++ e :: rest')
        = Parser.run .initial (Token.beforeDone tokens ++ [e]) := Parser.run_append_done he
      _ = ofTokens? (Token.beforeDone tokens ++ e :: rest) := (Parser.run_append_done he).symm
      _ = ofTokens? tokens := by rw [← hsplit]

/-- NOT before a group of two words, with a keyword behind the mark for the end. -/
theorem ofTokens?_negated_group :
    ofTokens? [⟨.not, "NOT".toList, 0⟩, ⟨.opening, ['('], 4⟩, ⟨.term, ['a'], 5⟩,
      ⟨.term, ['b'], 7⟩, ⟨.closing, [')'], 8⟩, ⟨.done, [], 9⟩, ⟨.or, "OR".toList, 10⟩] =
      .ok (some (.negation (.group (.all [.leaf .anywhere ['a'], .leaf .anywhere ['b']])))) := by
  refine ((ofTokens?_spec (by decide)).2.1 _).2 ⟨_, .one (.one (.negation rfl ?_)), rfl⟩
  have hwords : Disjunction 98 [⟨.term, ['a'], 5⟩, ⟨.term, ['b'], 7⟩]
      [.all [.leaf .anywhere ['a'], .leaf .anywhere ['b']]] :=
    .one (.beside (.value rfl (by simp)) (.one (.value rfl (by simp))))
  exact .group rfl hwords rfl

end Tree

end NoteQuery

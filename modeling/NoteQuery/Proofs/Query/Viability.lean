import NoteQuery.Proofs.Query.Completion
import NoteQuery.Proofs.Query.Nesting

/-!
# How a partial query can go on

A partial query is viable if some valid query begins with it (`Completion.Viable`). Where no phrase
is open and no word can run on, that is so exactly if the parser takes all its tokens and an operand
can begin behind them (`Completion.viable_iff`): a word is one, and what is still open then can be
closed.

Completion looks at the last token only, which tells whether an operand has just been completed
(`Parser.TakesAll.endsOperand_iff`). So the keywords are proposed exactly where an AND can follow,
and every proposal keeps a query viable but for a NOT inside a hundred groups and negations
(`Completion.suggest_of_viable`).
-/

set_option autoImplicit false

namespace NoteQuery

open Token (Divides Lexeme)

namespace Parser

variable {s s' s'' : State} {t : Token} {ts us : List Token}

theorem Takes.unique (h : Takes s t s') (h' : Takes s t s'') : s' = s'' := by
  have hstep := (step_of_takes h).symm.trans (step_of_takes h')
  exact Progress.reading.inj (Except.ok.inj hstep)

theorem TakesAll.unique (h : TakesAll s ts s') (h' : TakesAll s ts s'') : s' = s'' := by
  induction h with
  | nil =>
    cases h' with
    | nil => rfl
  | cons ht _ ih =>
    cases h' with
    | cons ht' hrest =>
      obtain rfl := ht.unique ht'
      exact ih hrest

/-- A run splits between any two of its tokens. -/
theorem TakesAll.split (h : TakesAll s (ts ++ us) s') :
    ∃ m, TakesAll s ts m ∧ TakesAll m us s' := by
  induction ts generalizing s with
  | nil => exact ⟨s, .nil, h⟩
  | cons t ts ih =>
    cases h with
    | cons ht hrest =>
      obtain ⟨m, hts, hus⟩ := ih hrest
      exact ⟨m, .cons ht hts, hus⟩

/-- A token is the value of a field, or an operand could begin in its place. -/
theorem Takes.admits (h : Takes s t s') : s.after.awaitsValue = true ∨ s.Admits := by
  cases h with
  | negation hs _ | opening hs _ | marker hs _ _ | value hs _ _ => exact .inr hs
  | fieldValue hafter _ _ =>
    rw [hafter]
    exact .inl rfl
  | and hafter _ | or hafter _ | closing hafter _ _ => exact .inr (State.admits_of_operand hafter)

/-- An operand is complete exactly behind a token with which operands end. -/
theorem Takes.endsOperand_iff (h : Takes s t s') :
    t.kind.endsOperand = true ↔ s'.after = .operand := by
  cases h with
  | negation _ hk | opening _ hk | marker _ hk _ | and _ hk | or _ hk =>
    simp [hk, Token.Kind.endsOperand]
  | value _ hk _ | fieldValue _ hk _ =>
    cases hkind : t.kind <;> simp_all [Token.Kind.isValue, Token.Kind.endsOperand, State.complete]
  | closing _ hk _ => simp [hk, Token.Kind.endsOperand, State.complete]

theorem TakesAll.endsOperand_iff (h : TakesAll .initial ts s) :
    (∃ t ∈ ts.getLast?, t.kind.endsOperand = true) ↔ s.after = .operand := by
  rcases List.eq_nil_or_concat' ts with rfl | ⟨us, t, rfl⟩
  · cases h with
    | nil => simp [State.initial]
  · obtain ⟨m, -, hlast⟩ := h.split
    cases hlast with
    | cons ht hnil =>
      cases hnil with
      | nil => simpa using ht.endsOperand_iff

/-- Behind an operand, closing parentheses complete every open group. -/
theorem exists_takesAll_closing (h : s.after = .operand) (n : Nat) :
    ∃ ts s', Divides n (List.replicate s.outer.length ')') ts ∧ TakesAll s ts s' ∧
      s'.after = .operand ∧ s'.outer = [] := by
  generalize houter : s.outer = outer
  induction outer generalizing s n with
  | nil => exact ⟨[], s, .done, .nil, h, houter⟩
  | cons o outer ih =>
    obtain ⟨p, scope⟩ := o
    have htakes : Takes s ⟨.closing, [')'], n⟩ _ := .closing h rfl houter
    obtain ⟨ts, s', hts, hall, hs'⟩ :=
      ih (s := State.complete ⟨outer, scope, .operand⟩ (.group s.scope.tree)) rfl (n + 1) rfl
    exact ⟨_, s', .lexeme .closing hts, .cons htakes hall, hs'⟩

/-- Tokens are accepted exactly if they are all taken and nothing is open behind them. -/
theorem exists_run_eq_ok_iff {e : Token} (hts : ∀ t ∈ ts, t.kind ≠ .done) (he : e.kind = .done) :
    (∃ root, run .initial (ts ++ [e]) = .ok root) ↔
      ∃ s, TakesAll .initial ts s ∧ (s.after = .start ∨ s.after = .operand ∧ s.outer = []) := by
  constructor
  · rintro ⟨root, hroot⟩
    obtain ⟨s, hall, hdone⟩ := (run_eq_ok_iff hts he).1 hroot
    refine ⟨s, hall, (step_eq_done_iff.1 hdone).2.imp And.left ?_⟩
    exact fun hend => ⟨hend.1, hend.2.1⟩
  · rintro ⟨s, hall, hafter | ⟨hafter, houter⟩⟩
    · have hdone := step_eq_done_iff.2 ⟨he, .inl ⟨hafter, rfl⟩⟩
      exact ⟨none, (run_eq_ok_iff hts he).2 ⟨s, hall, hdone⟩⟩
    · have hdone := step_eq_done_iff.2 ⟨he, .inr ⟨hafter, houter, rfl⟩⟩
      exact ⟨some s.scope.tree, (run_eq_ok_iff hts he).2 ⟨s, hall, hdone⟩⟩

end Parser

/-! ## Valid queries -/

/-- A query is valid exactly if all its tokens are taken and nothing is open behind them. -/
theorem Parsed.isValid_iff {q : Text} :
    (ofText q).isValid = true ↔ ∃ ts s, Divides 0 q ts ∧ Parser.TakesAll .initial ts s ∧
      (s.after = .start ∨ s.after = .operand ∧ s.outer = []) := by
  have hrun : ∀ ts, Divides 0 q ts →
      ((∃ root, Tree.ofTokens? (ts ++ [⟨.done, [], 0 + q.length⟩]) = .ok root) ↔
        ∃ s, Parser.TakesAll .initial ts s ∧
          (s.after = .start ∨ s.after = .operand ∧ s.outer = [])) :=
    fun ts hts => Parser.exists_run_eq_ok_iff (fun t ht => (hts.of_mem ht).1) rfl
  constructor
  · intro hvalid
    have haccepted : ∀ e, ofText q ≠ .rejected e := by
      intro e he
      rw [he] at hvalid
      exact absurd hvalid (by simp [isValid])
    cases hscan : Token.scan q with
    | error l => exact absurd (ofText_eq_rejected_iff.2 (.inl ⟨l, hscan, rfl⟩)) (haccepted _)
    | ok tokens =>
      obtain ⟨ts, hts, -⟩ := Token.scanFrom_eq_ok_iff.1 hscan
      cases hparse : Tree.ofTokens? (ts ++ [⟨.done, [], 0 + q.length⟩]) with
      | error f =>
        exact absurd (ofText_eq_rejected_iff.2 (.inr ⟨ts, f, hts, hparse, rfl⟩)) (haccepted _)
      | ok root =>
        obtain ⟨s, hs⟩ := (hrun ts hts).1 ⟨root, hparse⟩
        exact ⟨ts, s, hts, hs⟩
  · rintro ⟨ts, s, hts, hs⟩
    obtain ⟨root, hroot⟩ := (hrun ts hts).2 ⟨s, hs⟩
    cases hparsed : ofText q with
    | empty | query root => rfl
    | rejected e =>
      rcases ofText_eq_rejected_iff.1 hparsed with ⟨l, hscan, -⟩ | ⟨ts', f, hts', herror, -⟩
      · rw [Token.scan, Token.scanFrom_of_divides hts] at hscan
        exact absurd hscan (by simp)
      · obtain rfl := hts'.unique hts
        rw [hroot] at herror
        exact absurd herror (by simp)

namespace Completion

variable {p u : Text} {ts us : List Token} {s : Parser.State}

/-! ## Viable beginnings -/

/-- Whether a valid query begins with a text. -/
def Viable (p : Text) : Prop :=
  ∃ rest, (Parsed.ofText (p ++ rest)).isValid = true

theorem Viable.of_append (h : Viable (p ++ u)) : Viable p := by
  obtain ⟨rest, hvalid⟩ := h
  exact ⟨u ++ rest, List.append_assoc p u rest ▸ hvalid⟩

/-- A text that ends with an operand becomes a query when its groups are closed. -/
theorem viable_of_operand (hts : Divides 0 p ts) (hall : Parser.TakesAll .initial ts s)
    (hs : s.after = .operand) : Viable p := by
  obtain ⟨us, s', hus, hclosed, hafter, houter⟩ :=
    Parser.exists_takesAll_closing hs (0 + p.length)
  have hends : Text.EndsWord (List.replicate s.outer.length ')') := by
    intro c hc
    rw [List.eq_of_mem_replicate (List.mem_of_mem_head? hc)]
    decide
  have hdivides := hts.append hus (Text.apart_of_endsWord hends)
  exact ⟨_, Parsed.isValid_iff.2 ⟨_, s', hdivides, hall.append hclosed, .inr ⟨hafter, houter⟩⟩⟩

/-- Where an operand can begin, any leaf that can be written keeps a text viable. -/
theorem viable_append_leaf {f : Field} {v : Text} (hv : Tree.WritableValue v)
    (hts : Divides 0 p ts) (hseal : Text.SealsWord p) (hall : Parser.TakesAll .initial ts s)
    (hs : s.Admits) : Viable (p ++ (f.marker ++ Tree.renderValue v)) := by
  obtain ⟨us, hus, hleaf⟩ := Tree.divides_leaf (f := f) hv (0 + p.length) 0
  have hdepth := (Parser.State.holds_initial.takesAll hall).depth_le_of_admits hs
  have hread : Parser.TakesAll s us (s.complete (.leaf f v)) := by
    rcases hleaf.reads hs.1 with htakes | ⟨hdeep, -⟩
    · exact htakes
    · rw [Tree.nesting] at hdeep
      omega
  exact viable_of_operand (hts.append hus (hseal.apart _)) (hall.append hread) rfl

/-- Where no word can run on, a beginning is viable exactly if its tokens are taken and an operand
can begin behind them. -/
theorem viable_iff (hts : Divides 0 p ts) (hseal : Text.SealsWord p) :
    Viable p ↔ ∃ s, Parser.TakesAll .initial ts s ∧ s.Admits := by
  constructor
  · rintro ⟨rest, hvalid⟩
    obtain ⟨all, s', hdivides, htakes, hend⟩ := Parsed.isValid_iff.1 hvalid
    obtain ⟨vs, rfl, -⟩ := hdivides.split hts (hseal.apart rest)
    obtain ⟨s, hall, hrest⟩ := htakes.split
    refine ⟨s, hall, ?_⟩
    cases hrest with
    | nil =>
      rcases hend with hafter | ⟨hafter, -⟩
      · exact Parser.State.admits_of_after (by rw [hafter]; rfl) (by rw [hafter]; rfl)
      · exact Parser.State.admits_of_operand hafter
    | cons ht _ =>
      refine ht.admits.resolve_left fun hawaits => ?_
      -- a field marker would be the last token of the text, but its value stands right behind it
      have hvalue := hts.isValue_of_awaits (d := ⟨.done, [], 0⟩) rfl hall hawaits
      exact absurd hvalue (by decide)
  · rintro ⟨s, hall, hs⟩
    have hword : Tree.WritableValue ['x'] := by decide
    exact (viable_append_leaf (f := .anywhere) hword hts hseal hall hs).of_append

/-- What the tokens behind a beginning have to do to keep it viable. -/
theorem viable_append_iff (hts : Divides 0 p ts) (hseal : Text.SealsWord p)
    (hall : Parser.TakesAll .initial ts s) (hus : Divides (0 + p.length) u us)
    (hseal' : Text.SealsWord (p ++ u)) :
    Viable (p ++ u) ↔ ∃ s', Parser.TakesAll s us s' ∧ s'.Admits := by
  rw [viable_iff (hts.append hus (hseal.apart u)) hseal']
  constructor
  · rintro ⟨s', htakes, hs'⟩
    obtain ⟨m, hm, hrest⟩ := htakes.split
    obtain rfl := hall.unique hm
    exact ⟨s', hrest, hs'⟩
  · rintro ⟨s', hrest, hs'⟩
    exact ⟨s', hall.append hrest, hs'⟩

/-! ## Keywords behind a beginning -/

theorem sealsWord_append_blank (p w : Text) : Text.SealsWord (p ++ (w ++ [' '])) := by
  intro c hc
  rw [← List.append_assoc, List.getLast?_concat, Option.mem_some_iff] at hc
  rw [← hc]
  decide

/-- A keyword with the blank behind it. -/
theorem viable_append_keyword_iff {k : Token.Kind} {w : Text} (hts : Divides 0 p ts)
    (hseal : Text.SealsWord p) (hall : Parser.TakesAll .initial ts s)
    (hus : Divides (0 + p.length) (w ++ [' ']) [⟨k, w, 0 + p.length⟩]) :
    Viable (p ++ (w ++ [' '])) ↔
      ∃ s', Parser.Takes s ⟨k, w, 0 + p.length⟩ s' ∧ s'.Admits := by
  rw [viable_append_iff hts hseal hall hus (sealsWord_append_blank p w)]
  constructor
  · rintro ⟨s', htakes, hs'⟩
    cases htakes with
    | cons ht hnil =>
      cases hnil with
      | nil => exact ⟨s', ht, hs'⟩
  · rintro ⟨s', ht, hs'⟩
    exact ⟨s', ht.all, hs'⟩

/-- A connective follows an operand, and nothing else. -/
theorem viable_append_connective_iff {k : Token.Kind} {w : Text} (hk : k = .and ∨ k = .or)
    (hts : Divides 0 p ts) (hseal : Text.SealsWord p) (hall : Parser.TakesAll .initial ts s)
    (hus : Divides (0 + p.length) (w ++ [' ']) [⟨k, w, 0 + p.length⟩]) :
    Viable (p ++ (w ++ [' '])) ↔ s.after = .operand := by
  rw [viable_append_keyword_iff hts hseal hall hus]
  constructor
  · rintro ⟨s', htakes, -⟩
    cases htakes with
    | and hafter _ | or hafter _ | closing hafter _ _ => exact hafter
    | _ => rcases hk with rfl | rfl <;> simp_all [Token.Kind.isValue]
  · intro hafter
    rcases hk with rfl | rfl
    · exact ⟨_, .and hafter rfl, Parser.State.admits_of_after rfl rfl⟩
    · exact ⟨_, .or hafter rfl, Parser.State.admits_of_after rfl rfl⟩

/-- A NOT opens one more negation. -/
theorem viable_append_not_iff (hts : Divides 0 p ts) (hseal : Text.SealsWord p)
    (hall : Parser.TakesAll .initial ts s) (hs : s.Admits) :
    Viable (p ++ "NOT ".toList) ↔ s.depth < Grammar.maxNesting := by
  have hdepth := s.depth_eq
  have hus := Token.divides_not (0 + p.length)
  refine (viable_append_keyword_iff (w := "NOT".toList) hts hseal hall hus).trans ?_
  have htakes : Parser.Takes s ⟨.not, "NOT".toList, 0 + p.length⟩ _ := .negation hs rfl
  constructor
  · rintro ⟨s', htakes', hs'⟩
    obtain rfl := htakes.unique htakes'
    have hle := hs'.2 rfl
    rw [Parser.State.depth_eq] at hle
    simp only at hle
    omega
  · intro hlt
    refine ⟨_, htakes, rfl, fun _ => ?_⟩
    rw [Parser.State.depth_eq]
    simp only
    omega

/-- An AND with a word behind it can follow exactly where an operand has just been completed. -/
theorem viable_append_and_word_iff (hts : Divides 0 p ts) (hseal : Text.SealsWord p)
    (hall : Parser.TakesAll .initial ts s) :
    Viable (p ++ "AND x".toList) ↔ s.after = .operand := by
  have hsplit : p ++ "AND x".toList =
      p ++ ("AND".toList ++ [' ']) ++ (Field.anywhere.marker ++ Tree.renderValue ['x']) := by
    rw [List.append_assoc]
    rfl
  have hand : Divides (0 + p.length) ("AND".toList ++ [' '])
      [⟨.and, "AND".toList, 0 + p.length⟩] :=
    Token.divides_keyword (by decide) (by decide) rfl (by decide)
  rw [hsplit]
  constructor
  · intro h
    exact (viable_append_connective_iff (.inl rfl) hts hseal hall hand).1 h.of_append
  · intro hafter
    have htakes : Parser.Takes s ⟨.and, "AND".toList, 0 + p.length⟩ _ := .and hafter rfl
    exact viable_append_leaf (by decide) (hts.append hand (hseal.apart _))
      (sealsWord_append_blank p _) (hall.append htakes.all) (Parser.State.admits_of_after rfl rfl)

/-! ## What is proposed -/

/-- Behind a break nothing is under the cursor. -/
theorem completed_of_break (h : ∀ c ∈ p.getLast?, isBreak c = true) :
    completed p = p ∧ fragment p = [] := by
  unfold completed fragment
  rw [← List.head?_reverse] at h
  cases hrev : p.reverse with
  | nil => simp [List.reverse_eq_nil_iff.1 hrev]
  | cons c cs =>
    have hc : (!isBreak c) = false := by simp [h c (by rw [hrev]; rfl)]
    have hdrop : (c :: cs).dropWhile (!isBreak ·) = c :: cs := by simp [hc]
    rw [hdrop, ← hrev, List.reverse_reverse, hrev]
    simp [hc]

/-- The scanner's last token tells whether the parser has just completed an operand. -/
theorem followsOperand?_eq (hts : Divides 0 p ts) (hall : Parser.TakesAll .initial ts s) :
    followsOperand? p = some (decide (s.after = .operand)) := by
  have hscan : Token.scan p = _ := Token.scanFrom_of_divides hts
  have hends := hall.endsOperand_iff
  unfold followsOperand?
  simp only [hscan, List.dropLast_concat]
  cases hlast : ts.getLast? with
  | none =>
    simp only [hlast, Option.mem_def, reduceCtorEq, false_and, exists_false, false_iff] at hends
    simp [hends]
  | some t =>
    simp only [hlast, Option.mem_def, Option.some.injEq, exists_eq_left'] at hends
    simp [← hends]

/-- Behind a break, the keywords are proposed where the parser has just completed an operand, and
the field markers elsewhere. -/
theorem suggest_of_takesAll {limit : Int} (hlimit : 3 ≤ limit) (heven : p.count '"' % 2 = 0)
    (hbreak : ∀ c ∈ p.getLast?, isBreak c = true) (hts : Divides 0 p ts)
    (hall : Parser.TakesAll .initial ts s) (tags : List Text) :
    suggest p tags (some limit) = if s.after = .operand then keywords else markers := by
  obtain ⟨hcompleted, hfragment⟩ := completed_of_break hbreak
  have hproposals : proposals p tags = if s.after = .operand then keywords else markers := by
    unfold proposals
    rw [if_neg (by omega), hcompleted, followsOperand?_eq hts hall]
    simp only [hfragment, List.isEmpty_nil, if_true, decide_eq_true_eq]
  unfold suggest
  rw [hproposals]
  refine upTo_of_length_le ?_
  split <;> exact hlimit

/-- How many groups and negations are open at the end of a text. -/
def openAtEnd (p : Text) : Nat :=
  match Token.scan p with
  | .ok tokens => Token.openBehind tokens
  | .error _ => 0

theorem openAtEnd_eq (hts : Divides 0 p ts) (hall : Parser.TakesAll .initial ts s) :
    openAtEnd p = s.depth := by
  have hscan : Token.scan p = _ := Token.scanFrom_of_divides hts
  have hdone : Token.openBehind (ts ++ [⟨.done, [], 0 + p.length⟩]) = Token.openBehind ts := by
    simp only [Token.openBehind, List.foldl_append, List.foldl_cons, List.foldl_nil, Token.waiting]
  simp only [openAtEnd, hscan, hdone, hall.openBehind_eq]

/-- Behind a viable text in which nothing is under way, the keywords are proposed if an AND with a
word behind it can follow, and the field markers if not. Each of them keeps the text viable, but
for a NOT where a hundred groups and negations are open. -/
theorem suggest_of_viable (p : Text) (tags : List Text) (limit : Int) (hlimit : 3 ≤ limit)
    (heven : p.count '"' % 2 = 0) (hbreak : ∀ c ∈ p.getLast?, isBreak c = true)
    (hviable : Viable p) :
    (Viable (p ++ "AND x".toList) → suggest p tags (some limit) =
        ["AND ".toList, "OR ".toList, "NOT ".toList]) ∧
      (¬ Viable (p ++ "AND x".toList) → suggest p tags (some limit) =
        ["tag:".toList, "title:".toList, "body:".toList]) ∧
      ∀ x ∈ suggest p tags (some limit),
        Viable (p ++ x) ↔ ¬ (x = "NOT ".toList ∧ openAtEnd p = 100) := by
  have hseal : Text.SealsWord p := fun c hc => not_word_of_break (hbreak c hc)
  have hdivides : ∃ ts, Divides 0 p ts := by
    obtain ⟨rest, hvalid⟩ := hviable
    obtain ⟨us, -, hus, -⟩ := Parsed.isValid_iff.1 hvalid
    exact hus.of_append heven hseal
  obtain ⟨ts, hts⟩ := hdivides
  obtain ⟨s, hall, hs⟩ := (viable_iff hts hseal).1 hviable
  have hsuggest := suggest_of_takesAll hlimit heven hbreak hts hall tags
  have hword := viable_append_and_word_iff hts hseal hall
  rw [hword, hsuggest]
  refine ⟨fun hafter => if_pos hafter, fun hafter => if_neg hafter, ?_⟩
  intro x hx
  by_cases hafter : s.after = .operand
  · rw [if_pos hafter] at hx
    have hdepth := (Parser.State.holds_initial.takesAll hall).depth_le_of_admits hs
    have hconnective : ∀ k w, k = .and ∨ k = .or →
        Divides (0 + p.length) (w ++ [' ']) [⟨k, w, 0 + p.length⟩] → Viable (p ++ (w ++ [' '])) :=
      fun k w hk hus => (viable_append_connective_iff hk hts hseal hall hus).2 hafter
    rcases List.mem_cons.1 hx with rfl | hx
    · refine iff_of_true (hconnective .and "AND".toList (.inl rfl) ?_) (by simp)
      exact Token.divides_keyword (by decide) (by decide) rfl (by decide)
    rcases List.mem_cons.1 hx with rfl | hx
    · refine iff_of_true (hconnective .or "OR".toList (.inr rfl) ?_) (by simp)
      exact Token.divides_keyword (by decide) (by decide) rfl (by decide)
    · obtain rfl := List.mem_singleton.1 hx
      have hmax : Grammar.maxNesting = 100 := rfl
      rw [viable_append_not_iff hts hseal hall hs, openAtEnd_eq hts hall]
      simp only [true_and]
      omega
  · rw [if_neg hafter] at hx
    obtain ⟨f, hf, rfl⟩ := List.mem_map.1 hx
    have hleaf := viable_append_leaf (f := f) (v := ['x']) (by decide) hts hseal hall hs
    rw [← List.append_assoc] at hleaf
    refine iff_of_true hleaf.of_append fun hnot => ?_
    cases f <;> exact absurd hnot.1 (by decide)

/-- Behind a word in an open group, and behind the NOT that can follow it. -/
theorem suggest_of_viable_group :
    let p : Text := "tag:\"to do\" (a ".toList
    let q : Text := p ++ "NOT ".toList
    (p.count '"' % 2 = 0 ∧ (∀ c ∈ p.getLast?, isBreak c = true) ∧ Viable p) ∧
      suggest p [] (some 10) = ["AND ".toList, "OR ".toList, "NOT ".toList] ∧ Viable q ∧
      suggest q [] (some 3) = ["tag:".toList, "title:".toList, "body:".toList] := by
  intro p q
  have hclosed : (Parsed.ofText (p ++ ")".toList)).isValid = true := by decide +kernel
  have hjoined : (Parsed.ofText (p ++ "AND x".toList ++ ")".toList)).isValid = true := by
    decide +kernel
  have heven : p.count '"' % 2 = 0 := by decide +kernel
  have hbreak : ∀ c ∈ p.getLast?, isBreak c = true := by
    rintro c ⟨⟩
    decide
  have hbreak' : ∀ c ∈ q.getLast?, isBreak c = true := by
    rintro c ⟨⟩
    decide
  obtain ⟨hkeywords, -, hkeep⟩ :=
    suggest_of_viable p [] 10 (by decide) heven hbreak ⟨_, hclosed⟩
  have hsuggest := hkeywords ⟨_, hjoined⟩
  rw [hsuggest] at hkeep
  have hq : Viable q := (hkeep _ (by simp)).2 fun h => absurd h.2 (by decide +kernel)
  -- an AND behind the NOT is refused, whatever follows
  have hand : ¬ Viable (q ++ "AND x".toList) := by
    intro h
    have hkeywords := (suggest_of_viable q [] 3 (by decide) (by decide) hbreak' hq).1 h
    exact absurd hkeywords (by decide +kernel)
  refine ⟨⟨heven, hbreak, _, hclosed⟩, hsuggest, hq, ?_⟩
  exact (suggest_of_viable q [] 3 (by decide) (by decide) hbreak' hq).2.1 hand

end Completion

end NoteQuery

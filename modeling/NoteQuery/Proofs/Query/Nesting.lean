import Mathlib.Algebra.GroupWithZero.Nat
import NoteQuery.Proofs.Query.Rejections

/-!
# How deeply queries nest

A query has at most a hundred groups and negations on any way from its root to a leaf
(`Tree.Branch`), and as there are at most two connectives between two of them, its tree is at most
303 nodes high, whatever the length of the text.

The parser sees to it by counting what is open. `Token.openBehind` counts the same on the tokens
alone, and the two agree wherever the parser goes on (`Parser.TakesAll.openBehind_eq`). So a query
is refused as soon as one more group or negation is opened inside a hundred of them.

`Parsed.nesting_bounded` puts the two together.
-/

set_option autoImplicit false

namespace NoteQuery

/-! ## Branches -/

namespace Tree

/-- The nodes from the root of a tree to one of its leaves. -/
inductive Branch : Tree → List Tree → Prop
  | leaf {f : Field} {v : Text} : Branch (.leaf f v) [.leaf f v]
  | all {cs path : List Tree} {c : Tree} : c ∈ cs → Branch c path →
      Branch (.all cs) (.all cs :: path)
  | any {cs path : List Tree} {c : Tree} : c ∈ cs → Branch c path →
      Branch (.any cs) (.any cs :: path)
  | negation {path : List Tree} {c : Tree} : Branch c path →
      Branch (.negation c) (.negation c :: path)
  | group {path : List Tree} {c : Tree} : Branch c path → Branch (.group c) (.group c :: path)

def isLevel : Tree → Bool
  | .negation _ | .group _ => true
  | _ => false

variable {t : Tree} {path cs : List Tree}

/-- No way has more groups and negations than the tree is nested. -/
theorem Branch.levels_le (h : t.Branch path) : path.countP isLevel ≤ t.nesting := by
  induction h with
  | leaf => simp [isLevel]
  | all hc _ ih | any hc _ ih =>
    have hle := nesting_le_nestingList hc
    rw [List.countP_cons_of_neg (by simp [isLevel]), nesting]
    exact Nat.le_trans ih hle
  | negation _ ih | group _ ih =>
    rw [List.countP_cons_of_pos (by simp [isLevel]), nesting]
    omega

/-- No way has more nodes than the tree is high. -/
theorem Branch.length_le (h : t.Branch path) : path.length ≤ t.height := by
  induction h with
  | leaf => simp [height]
  | all hc _ ih | any hc _ ih =>
    have hle := height_le_heightList hc
    rw [List.length_cons, height]
    omega
  | negation _ ih | group _ ih =>
    rw [List.length_cons, height]
    omega

theorem exists_height_eq_heightList (h : cs ≠ []) : ∃ c ∈ cs, c.height = heightList cs := by
  induction cs with
  | nil => exact absurd rfl h
  | cons c cs ih =>
    rw [heightList]
    rcases Nat.le_total (heightList cs) c.height with hle | hle
    · exact ⟨c, List.mem_cons_self, (Nat.max_eq_left hle).symm⟩
    · rw [Nat.max_eq_right hle]
      cases cs with
      | nil => exact ⟨c, List.mem_cons_self, Nat.le_antisymm hle (Nat.zero_le _)⟩
      | cons d ds =>
        obtain ⟨e, he, hheight⟩ := ih (List.cons_ne_nil d ds)
        exact ⟨e, List.mem_cons_of_mem c he, hheight⟩

/-- A tree is as high as its longest way is long. -/
theorem Proper.exists_branch (h : t.Proper) : ∃ path, t.Branch path ∧ path.length = t.height := by
  induction t with
  | leaf f v => exact ⟨_, .leaf, rfl⟩
  | all cs ih =>
    obtain ⟨c, hc, hheight⟩ :=
      exists_height_eq_heightList (List.length_pos_iff.1 (Nat.lt_of_lt_of_le Nat.two_pos h.1))
    obtain ⟨path, hpath, hlength⟩ := ih c hc (properList_iff.1 h.2 c hc)
    refine ⟨_, .all hc hpath, ?_⟩
    rw [List.length_cons, hlength, hheight, height, Nat.add_comm]
  | any cs ih =>
    obtain ⟨c, hc, hheight⟩ :=
      exists_height_eq_heightList (List.length_pos_iff.1 (Nat.lt_of_lt_of_le Nat.two_pos h.1))
    obtain ⟨path, hpath, hlength⟩ := ih c hc (properList_iff.1 h.2 c hc)
    refine ⟨_, .any hc hpath, ?_⟩
    rw [List.length_cons, hlength, hheight, height, Nat.add_comm]
  | negation c ih =>
    obtain ⟨path, hpath, hlength⟩ := ih h
    refine ⟨_, .negation hpath, ?_⟩
    rw [List.length_cons, hlength, height, Nat.add_comm]
  | group c ih =>
    obtain ⟨path, hpath, hlength⟩ := ih h
    refine ⟨_, .group hpath, ?_⟩
    rw [List.length_cons, hlength, height, Nat.add_comm]
  | absent => exact absurd h id
  | unknown kind => exact absurd h id

end Tree

/-! ## What is open behind some tokens -/

namespace Token

/-- How many negations wait for their operand in each open scope, inside out, after one more
token. -/
def waiting (ws : List Nat) (t : Token) : List Nat :=
  match t.kind, ws with
  | .not, n :: ws => (n + 1) :: ws
  | .opening, ws => 0 :: ws
  -- a group is an operand of the scope around it
  | .closing, _ :: _ :: ws => 0 :: ws
  | .term, _ :: ws => 0 :: ws
  | .phrase, _ :: ws => 0 :: ws
  | _, ws => ws

/-- How many groups and negations are open behind some tokens. -/
def openBehind (ts : List Token) : Nat :=
  let ws := ts.foldl waiting [0]
  ws.sum + (ws.length - 1)

end Token

namespace Parser

variable {s s' : State} {t : Token} {ts : List Token}

/-- How many negations wait in each open scope, inside out. -/
def State.waiting (s : State) : List Nat :=
  s.scope.negations :: s.outer.map (·.2.negations)

theorem enclosed_eq (outer : List (Nat × Scope)) :
    enclosed outer = (outer.map (·.2.negations)).sum + outer.length := by
  induction outer with
  | nil => rfl
  | cons o outer ih =>
    rw [enclosed_cons, ih, List.map_cons, List.sum_cons, List.length_cons]
    omega

theorem State.depth_eq_waiting (s : State) :
    s.depth = s.waiting.sum + (s.waiting.length - 1) := by
  rw [depth_eq, enclosed_eq, waiting, List.sum_cons, List.length_cons, List.length_map]
  omega

/-- Each token changes what waits in the same way for the parser and on the tokens alone. -/
theorem Takes.waiting_eq (h : Takes s t s') : t.waiting s.waiting = s'.waiting := by
  cases h with
  | negation _ hk | opening _ hk | marker _ hk _ | and _ hk | or _ hk =>
    simp only [Token.waiting, hk]
    rfl
  | value _ hk _ | fieldValue _ hk _ =>
    cases hkind : t.kind with
    | term | phrase =>
      simp only [Token.waiting, hkind, State.waiting]
      rfl
    | _ => simp [hkind, Token.Kind.isValue] at hk
  | closing _ hk houter =>
    simp only [Token.waiting, State.waiting, hk, houter]
    rfl

theorem TakesAll.waiting_eq (h : TakesAll s ts s') :
    ts.foldl Token.waiting s.waiting = s'.waiting := by
  induction h with
  | nil => rfl
  | cons ht _ ih => rw [List.foldl_cons, ht.waiting_eq, ih]

/-- The depth that the parser guards is what is open behind the tokens that it has taken. -/
theorem TakesAll.openBehind_eq (h : TakesAll .initial ts s) : Token.openBehind ts = s.depth := by
  have hwaiting : ts.foldl Token.waiting [0] = s.waiting := h.waiting_eq
  rw [State.depth_eq_waiting, Token.openBehind, hwaiting]

/-- Where as much is open as may be, a token that opens more is refused as soon as the next one
shows that it does. -/
theorem run_eq_nestedTooDeeply {u : Token} {rest : List Token} (hs : s.Admits)
    (hdepth : s.depth = Grammar.maxNesting)
    (hopens : t.kind = .opening ∧ u.kind ≠ .closing ∨
      t.kind = .not ∧ u.kind.startsOperand = true) :
    run s (t :: u :: rest) = .error ⟨.nestedTooDeeply, t.position⟩ := by
  have heq := s.depth_eq
  rcases hopens with ⟨ht, hu⟩ | ⟨ht, hu⟩
  · have htakes := Takes.opening hs ht
    refine run_eq_error_iff.2 (.inl ⟨[t], u, rest, _, rfl, htakes.all, ?_⟩)
    refine .deepGroup rfl hu ?_
    rw [State.depth_eq, enclosed_cons]
    omega
  · have htakes := Takes.negation hs ht
    refine run_eq_error_iff.2 (.inl ⟨[t], u, rest, _, rfl, htakes.all, ?_⟩)
    refine .deepNegation rfl hu ?_
    rw [State.depth_eq]
    simp only
    omega

end Parser

/-! ## Queries -/

namespace Parsed

variable {q : Text} {tree : Tree}

/-- The tree of a query has at most a hundred groups and negations on any way from its root to a
leaf, and is at most 303 nodes high. -/
theorem bounded_of_ofText (h : ofText q = .query tree) :
    tree.height ≤ 303 ∧ (∃ path, tree.Branch path ∧ path.length = tree.height) ∧
      ∀ path, tree.Branch path → path.countP Tree.isLevel ≤ 100 ∧ path.length ≤ tree.height := by
  have hshaped := shaped_of_ofText h
  refine ⟨hshaped.height_le, hshaped.proper.exists_branch, ?_⟩
  intro path hpath
  exact ⟨Nat.le_trans hpath.levels_le hshaped.nesting_le, hpath.length_le⟩

/-- A query whose tokens open one more group or negation inside a hundred is refused there. -/
theorem ofText_eq_nestedTooDeeply {ts us rest : List Token} {t u : Token} {root : Option Tree}
    (hscan : Token.scan q = .ok (ts ++ t :: u :: rest))
    (haccepted : Tree.ofTokens? (ts ++ us) = .ok root) (hopen : Token.openBehind ts = 100)
    (hopens : t.kind = .opening ∧ u.kind ≠ .closing ∨
      t.kind = .not ∧ u.kind.startsOperand = true) :
    ofText q = .rejected (.syntactic ⟨.nestedTooDeeply, t.position⟩) := by
  obtain ⟨ds, hds, hsplit⟩ := Token.scanFrom_eq_ok_iff.1 hscan
  -- only the last token marks the end, so the parser has taken all of `ts`
  have hkinds : ∀ v ∈ ts, v.kind ≠ .done := by
    intro v hv
    have hfront := congrArg List.dropLast hsplit
    rw [List.dropLast_concat, List.dropLast_append_of_ne_nil (List.cons_ne_nil _ _)] at hfront
    exact (hds.of_mem (hfront ▸ List.mem_append_left _ hv)).1
  obtain ⟨s, hall⟩ := Parser.exists_takesAll_of_run hkinds haccepted
  have hdepth : s.depth = Grammar.maxNesting := hall.openBehind_eq.symm.trans hopen
  have hadmits : s.Admits := by
    refine ⟨?_, fun _ => Nat.le_of_eq hdepth⟩
    cases hawaits : s.after.awaitsValue with
    | false => rfl
    | true =>
      -- the next token would be a value, and `t` is none
      have hvalue := hds.isValue_of_awaits hsplit.symm hall hawaits
      rcases hopens with ⟨ht, -⟩ | ⟨ht, -⟩
      · simp [ht, Token.Kind.isValue] at hvalue
      · simp [ht, Token.Kind.isValue] at hvalue
  refine ofText_eq_rejected_iff.2 (.inr ⟨ds, _, hds, ?_, rfl⟩)
  rw [← hsplit, Tree.ofTokens?, hall.run]
  exact Parser.run_eq_nestedTooDeeply hadmits hdepth hopens

/-- However long a query is, its tree is at most 303 nodes high, which is the length of its longest
way from the root to a leaf, and no such way has more than a hundred groups and negations. If a
query begins with tokens with which an accepted list of tokens begins as well, and a hundred groups
and negations are open behind them, then a parenthesis that does not close at once and a NOT with
an operand to come are refused as nested too deeply, whatever follows. -/
theorem nesting_bounded (q : Text) :
    (∀ root, ofText q = .query root →
      root.height ≤ 303 ∧ (∃ path, root.Branch path ∧ path.length = root.height) ∧
        ∀ path, root.Branch path →
          path.countP Tree.isLevel ≤ 100 ∧ path.length ≤ root.height) ∧
      ∀ ts t u rest us root, Token.scan q = .ok (ts ++ t :: u :: rest) →
        Tree.ofTokens? (ts ++ us) = .ok root → Token.openBehind ts = 100 →
        t.kind = .opening ∧ u.kind ≠ .closing ∨
          t.kind = .not ∧ u.kind.startsOperand = true →
        ∃ e, ofText q = .rejected e ∧ e.text = "Query nested too deeply".toList ∧
          e.position = t.position := by
  refine ⟨fun root => bounded_of_ofText, ?_⟩
  intro ts t u rest us root hscan haccepted hopen hopens
  exact ⟨_, ofText_eq_nestedTooDeeply hscan haccepted hopen hopens, rfl, rfl⟩

/-- A group and a negation beside each other, and a hundred parentheses with one more behind. -/
theorem nesting_bounded_parentheses :
    let opened : List Token := (List.range 100).map fun p => ⟨.opening, ['('], p⟩
    let deep : Text := List.replicate 100 '(' ++ "(a".toList
    let tree : Tree := .all [.group (.any [.leaf .anywhere ['a'], .leaf .anywhere ['b']]),
      .negation (.leaf .anywhere ['c'])]
    (ofText "(a OR b) NOT c".toList = .query tree ∧ tree.height ≤ 303) ∧
      Token.scan deep =
        .ok (opened ++ [⟨.opening, ['('], 100⟩, ⟨.term, ['a'], 101⟩, ⟨.done, [], 102⟩]) ∧
      ∃ e, ofText deep = .rejected e ∧ e.text = "Query nested too deeply".toList ∧
        e.position = 100 := by
  intro opened deep tree
  have hquery : ofText "(a OR b) NOT c".toList = .query tree := by decide +kernel
  have hscan : Token.scan deep =
      .ok (opened ++ [⟨.opening, ['('], 100⟩, ⟨.term, ['a'], 101⟩, ⟨.done, [], 102⟩]) := by
    decide +kernel
  -- the same parentheses around a word, all of them closed
  let closed : List Token := (List.range 100).map fun p => ⟨.closing, [')'], 101 + p⟩
  have haccepted :
      Tree.ofTokens? (opened ++ (⟨.term, ['a'], 100⟩ :: closed ++ [⟨.done, [], 201⟩])) =
        .ok (some ((List.range 100).foldl (fun t _ => .group t) (.leaf .anywhere ['a']))) := by
    decide +kernel
  have hopen : Token.openBehind opened = 100 := by decide +kernel
  refine ⟨⟨hquery, ((nesting_bounded _).1 _ hquery).1⟩, hscan, ?_⟩
  exact (nesting_bounded deep).2 _ _ _ _ _ _ hscan haccepted hopen (.inl ⟨rfl, by simp⟩)

end Parsed

end NoteQuery

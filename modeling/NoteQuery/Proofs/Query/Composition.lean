import NoteQuery.Proofs.Query.RoundTrip

/-!
# Queries put together

The text of a query can stand inside that of another. What it divides into and what the grammar
makes of it are the same there, offsets apart, so that the tree of the whole is put together from
the trees of the parts: `Parsed.ofText_or`, `Parsed.ofText_and_groups` and
`Parsed.ofText_not_group`. A whole that opens more groups and negations than the parser allows is
refused, and the error says that it is nested too deeply.
-/

set_option autoImplicit false

namespace NoteQuery

open Token (Divides)
open Grammar (Operand Conjunction Disjunction)

/-! ## Phrases at other offsets -/

namespace Grammar

mutual

/-- An operand means the same wherever it stands. -/
theorem Operand.shift (k : Nat) : ∀ {room : Nat} {ts : List Token} {t : Tree},
    Operand room ts t → Operand room (ts.map (Token.shift k)) t
  | _, _, _, .value hk hne => .value hk hne
  | _, _, _, .field hm hf hk hne => .field hm hf hk hne
  | _, _, _, .negation hn hop => .negation hn (hop.shift k)
  | _, _, _, .group ho hdis hc => by
    rw [List.map_append]
    exact .group ho (hdis.shift k) hc

theorem Conjunction.shift (k : Nat) : ∀ {room : Nat} {ts : List Token} {factors : List Tree},
    Conjunction room ts factors → Conjunction room (ts.map (Token.shift k)) factors
  | _, _, _, .one hop => .one (hop.shift k)
  | _, _, _, .beside hop hcon => by
    rw [List.map_append]
    exact .beside (hop.shift k) (hcon.shift k)
  | _, _, _, .joined hop ha hcon => by
    rw [List.map_append]
    exact .joined (hop.shift k) ha (hcon.shift k)

theorem Disjunction.shift (k : Nat) : ∀ {room : Nat} {ts : List Token} {alternatives : List Tree},
    Disjunction room ts alternatives → Disjunction room (ts.map (Token.shift k)) alternatives
  | _, _, _, .one hcon => .one (hcon.shift k)
  | _, _, _, .joined hcon ho hdis => by
    rw [List.map_append]
    exact .joined (hcon.shift k) ho (hdis.shift k)

end

/-- Two disjunctions with an OR between them are one. -/
theorem Disjunction.append {room : Nat} {ts us : List Token} {o : Token} {as bs : List Tree}
    (h : Disjunction room ts as) (ho : o.kind = .or) (h' : Disjunction room us bs) :
    Disjunction room (ts ++ o :: us) (as ++ bs) := by
  match h with
  | .one hcon => exact .joined hcon ho h'
  | .joined hcon ho' hdis =>
    rw [List.append_assoc]
    exact .joined hcon ho' (hdis.append ho h')

end Grammar

/-! ## Alternatives -/

namespace Tree

/-- The alternatives of a tree; what is no disjunction is its own only alternative. -/
def alternatives : Tree → List Tree
  | .any cs => cs
  | t => [t]

theorem alternatives_anyOf {as : List Tree} (hne : as ≠ [])
    (h : ∀ a ∈ as, a.isDisjunction = false) : (anyOf as).alternatives = as := by
  match as with
  | [] => exact absurd rfl hne
  | [a] =>
    have ha := h a (List.mem_singleton_self a)
    cases a with
    | any cs => simp [isDisjunction] at ha
    | _ => rfl
  | a :: b :: as => rfl

end Tree

/-! ## Texts inside texts -/

namespace Text

def orQueries (q₁ q₂ : Text) : Text :=
  q₁ ++ " OR ".toList ++ q₂

/-- The text of two queries in parentheses with an AND between them. -/
def andGroups (q₁ q₂ : Text) : Text :=
  "(".toList ++ q₁ ++ ") AND (".toList ++ q₂ ++ ")".toList

/-- The text of a query in parentheses with a NOT in front. -/
def notGroup (q : Text) : Text :=
  "NOT (".toList ++ q ++ ")".toList

end Text

namespace Parsed

variable {q q₁ q₂ : Text} {t t₁ t₂ : Tree}

/-- The tokens of a query at any offset, and the disjunction that they make. -/
theorem exists_disjunction (h : ofText q = .query t) (n : Nat) :
    ∃ ts, Divides n q ts ∧ Disjunction Grammar.maxNesting ts t.alternatives := by
  obtain ⟨ts, hts, as, hdis, rfl⟩ := ofText_eq_query_iff.1 h
  obtain ⟨hne, has⟩ := hdis.shaped
  rw [Tree.alternatives_anyOf hne fun a ha => (has a ha).2]
  refine ⟨ts.map (Token.shift n), ?_, hdis.shift n⟩
  have hshift := hts.shift n
  rwa [Nat.zero_add] at hshift

theorem anyOf_alternatives (h : ofText q = .query t) : Tree.anyOf t.alternatives = t := by
  obtain ⟨ts, -, as, hdis, rfl⟩ := ofText_eq_query_iff.1 h
  obtain ⟨hne, has⟩ := hdis.shaped
  rw [Tree.alternatives_anyOf hne fun a ha => (has a ha).2]

/-- A query in parentheses is an operand, wherever it stands. -/
theorem exists_group (h : ofText q = .query t) (n : Nat) :
    ∃ ts, Divides n ('(' :: (q ++ [')'])) ts ∧
      Operand (Grammar.maxNesting + 1) ts (.group t) := by
  obtain ⟨ts, hts, hdis⟩ := exists_disjunction h (n + 1)
  have hclosing : Divides (n + 1 + q.length) [')'] [⟨.closing, [')'], n + 1 + q.length⟩] :=
    Token.Lexeme.closing.divides
  have hinner := hts.append hclosing (Text.apart_of_endsWord (Text.endsWord_cons.2 (by decide)))
  have hgroup := Operand.group (o := ⟨.opening, ['('], n⟩)
    (c := ⟨.closing, [')'], n + 1 + q.length⟩) rfl hdis rfl
  rw [anyOf_alternatives h] at hgroup
  exact ⟨_, .lexeme .opening hinner, hgroup⟩

/-- A text whose tokens the grammar derives for any room is a query as long as its nesting is within
the limit, and otherwise nested too deeply. -/
theorem ofText_of_disjunction {u : Text} {room : Nat} {ts : List Token} {as : List Tree}
    (hu : Divides 0 u ts) (h : Disjunction room ts as) :
    (Tree.anyOf as).nesting ≤ Grammar.maxNesting ∧ ofText u = .query (.anyOf as) ∨
      Grammar.maxNesting < (Tree.anyOf as).nesting ∧
        ∃ p, ofText u = .rejected (.syntactic ⟨.nestedTooDeeply, p⟩) := by
  have hscan : Token.scan u = .ok (ts ++ [⟨.done, [], 0 + u.length⟩]) :=
    Token.scanFrom_of_divides hu
  have hrun := @Disjunction.run_eq room ts [] as ⟨.done, [], 0 + u.length⟩ h rfl
  have hblank : Text.allBlank u ≠ true := by
    intro hblank
    exact h.ne_nil (hu.unique (Token.divides_of_allBlank hblank 0))
  rcases hrun with ⟨hle, hroot⟩ | ⟨hdeep, p, herror⟩
  · refine .inl ⟨hle, ?_⟩
    simp only [ofText, if_neg hblank, hscan, Tree.ofTokens?, hroot]
  · refine .inr ⟨hdeep, p, ?_⟩
    simp only [ofText, if_neg hblank, hscan, Tree.ofTokens?, herror]

/-- Two queries with an OR between them are one query, whose alternatives are those of both. -/
theorem ofText_or (h₁ : ofText q₁ = .query t₁) (h₂ : ofText q₂ = .query t₂) :
    ofText (Text.orQueries q₁ q₂) = .query (.anyOf (t₁.alternatives ++ t₂.alternatives)) := by
  obtain ⟨ts, hts, hdis⟩ := exists_disjunction h₁ 0
  obtain ⟨us, hus, hdis'⟩ := exists_disjunction h₂ (0 + q₁.length + " OR ".toList.length)
  have hrest := (Token.divides_or (0 + q₁.length)).append hus
    (Text.apart_of_last (u := " OR".toList) (by decide))
  have hdivides := hts.append hrest (Text.apart_of_endsWord (Text.endsWord_cons.2 (by decide)))
  rw [← List.append_assoc] at hdivides
  have hwhole := hdis.append (o := ⟨.or, "OR".toList, 0 + q₁.length + 1⟩) rfl hdis'
  have hle : (Tree.anyOf (t₁.alternatives ++ t₂.alternatives)).nesting ≤ Grammar.maxNesting := by
    rw [Tree.nesting_anyOf, Tree.nestingList_le_iff]
    intro a ha
    rcases List.mem_append.1 ha with ha | ha
    · exact (hdis.shaped.2 a ha).1.nesting_le
    · exact (hdis'.shaped.2 a ha).1.nesting_le
  rcases ofText_of_disjunction hdivides hwhole with ⟨-, hquery⟩ | ⟨hdeep, -⟩
  · exact hquery
  · omega

/-- Two queries in parentheses with an AND between them are a conjunction, if each of them leaves
room for one more group. -/
theorem ofText_and_groups (h₁ : ofText q₁ = .query t₁) (h₂ : ofText q₂ = .query t₂) :
    (t₁.nesting < Grammar.maxNesting ∧ t₂.nesting < Grammar.maxNesting) ∧
        ofText (Text.andGroups q₁ q₂) = .query (.all [.group t₁, .group t₂]) ∨
      ¬ (t₁.nesting < Grammar.maxNesting ∧ t₂.nesting < Grammar.maxNesting) ∧
        ∃ p, ofText (Text.andGroups q₁ q₂) = .rejected (.syntactic ⟨.nestedTooDeeply, p⟩) := by
  have hsplit : Text.andGroups q₁ q₂ =
      ('(' :: (q₁ ++ [')'])) ++ " AND ".toList ++ ('(' :: (q₂ ++ [')'])) := by
    unfold Text.andGroups
    simp
  rw [hsplit]
  obtain ⟨ts, hts, hop⟩ := exists_group h₁ 0
  obtain ⟨us, hus, hop'⟩ :=
    exists_group h₂ (0 + ('(' :: (q₁ ++ [')'])).length + " AND ".toList.length)
  have hrest := (Token.divides_and (0 + ('(' :: (q₁ ++ [')'])).length)).append hus
    (Text.apart_of_last (u := " AND".toList) (by decide))
  have hdivides := hts.append hrest (Text.apart_of_endsWord (Text.endsWord_cons.2 (by decide)))
  rw [← List.append_assoc] at hdivides
  have hwhole := Disjunction.one (.joined hop
    (a := ⟨.and, "AND".toList, 0 + ('(' :: (q₁ ++ [')'])).length + 1⟩) rfl (.one hop'))
  have hnesting : (Tree.anyOf [.allOf [.group t₁, .group t₂]]).nesting =
      max (1 + t₁.nesting) (1 + t₂.nesting) := by
    simp [Tree.anyOf, Tree.allOf, Tree.nesting, Tree.nestingList]
  rcases ofText_of_disjunction hdivides hwhole with ⟨hle, hquery⟩ | ⟨hdeep, hrejected⟩
  · exact .inl ⟨by omega, hquery⟩
  · exact .inr ⟨by omega, hrejected⟩

/-- A NOT in front of a query in parentheses negates it, if the query leaves room for a negation and
a group. -/
theorem ofText_not_group (h : ofText q = .query t) :
    t.nesting + 2 ≤ Grammar.maxNesting ∧
        ofText (Text.notGroup q) = .query (.negation (.group t)) ∨
      ¬ t.nesting + 2 ≤ Grammar.maxNesting ∧
        ∃ p, ofText (Text.notGroup q) = .rejected (.syntactic ⟨.nestedTooDeeply, p⟩) := by
  have hsplit : Text.notGroup q = "NOT ".toList ++ ('(' :: (q ++ [')'])) := by
    unfold Text.notGroup
    simp
  rw [hsplit]
  obtain ⟨ts, hts, hop⟩ := exists_group h (0 + "NOT ".toList.length)
  have hdivides := (Token.divides_not 0).append hts
    (Text.apart_of_endsWord (Text.endsWord_cons.2 (by decide)))
  have hwhole := Disjunction.one (.one (.negation (n := ⟨.not, "NOT".toList, 0⟩) rfl hop))
  have hnesting : (Tree.anyOf [.allOf [.negation (.group t)]]).nesting = 1 + (1 + t.nesting) := rfl
  rcases ofText_of_disjunction hdivides hwhole with ⟨hle, hquery⟩ | ⟨hdeep, hrejected⟩
  · exact .inl ⟨by omega, hquery⟩
  · exact .inr ⟨by omega, hrejected⟩

end Parsed

end NoteQuery

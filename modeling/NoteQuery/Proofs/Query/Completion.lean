import NoteQuery.Proofs.Query.Lexemes
import NoteQuery.Query.Completion
import NoteQuery.Query.Parsed

/-!
# Where nothing is proposed

Completion asks the scanner, and never the parser, what stands in front of the cursor. So it is
silent exactly where no text that goes on from there has tokens (`Completion.suggest_of_deadEnd`):
a beginning that can be divided is never refused, even where the parser refuses every query that
begins with it.
-/

set_option autoImplicit false

namespace NoteQuery

namespace Completion

/-! ## What is complete -/

theorem not_word_of_break {c : Char} (h : isBreak c = true) : Text.isWord c = false := by
  rcases Bool.or_eq_true_iff.1 h with hblank | hparen
  · simp [Text.isWord, hblank]
  · simp [Text.isWord, Text.isDelimiter, hparen]

/-- What is complete ends with a break, so that no word runs on behind it. -/
theorem sealsWord_completed (query : Text) : Text.SealsWord (completed query) := by
  intro c hc
  have hhead := List.head?_dropWhile_not (!isBreak ·) query.reverse
  unfold completed at hc
  rw [List.getLast?_reverse, Option.mem_def] at hc
  rw [hc] at hhead
  exact not_word_of_break (by simpa using hhead)

/-- A text that can be divided has every beginning divided that ends with a break outside
quotes. -/
theorem scan_completed_error_iff (query : Text) :
    (∃ e, Token.scan (completed query) = .error e) ↔
      (completed query).count '"' % 2 = 1 ∨
        ∀ rest, ∃ e, Token.scan (completed query ++ rest) = .error e := by
  constructor
  · rintro ⟨e, he⟩
    by_cases hodd : (completed query).count '"' % 2 = 1
    · exact .inl hodd
    · right
      intro rest
      cases hrest : Token.scan (completed query ++ rest) with
      | error e => exact ⟨e, rfl⟩
      | ok tokens =>
        obtain ⟨ts, hts⟩ := Token.divides_of_scanFrom hrest
        obtain ⟨us, hus⟩ := hts.of_append (by omega) (sealsWord_completed query)
        rw [Token.scan, Token.scanFrom_of_divides hus] at he
        exact absurd he (by simp)
  · rintro (hodd | hrest)
    · cases hscan : Token.scan (completed query) with
      | error e => exact ⟨e, rfl⟩
      | ok tokens =>
        obtain ⟨ts, hts⟩ := Token.divides_of_scanFrom hscan
        have heven := hts.count_quote
        omega
    · simpa using hrest []

theorem followsOperand?_eq_none_iff (t : Text) :
    followsOperand? t = none ↔ ∃ e, Token.scan t = .error e := by
  unfold followsOperand?
  cases Token.scan t with
  | error e => simp
  | ok tokens =>
    simp only [reduceCtorEq, exists_false, iff_false]
    cases tokens.dropLast.getLast? <;> simp

/-! ## Dead ends -/

/-- Whether the cursor or the last break stands inside an open phrase, or no text that goes on
from the last break can be divided into tokens. -/
def DeadEnd (query : Text) : Prop :=
  query.count '"' % 2 = 1 ∨ (completed query).count '"' % 2 = 1 ∨
    ∀ rest, ∃ e, Token.scan (completed query ++ rest) = .error e

theorem deadEnd_iff (query : Text) :
    DeadEnd query ↔ query.count '"' % 2 = 1 ∨ followsOperand? (completed query) = none := by
  rw [followsOperand?_eq_none_iff, scan_completed_error_iff]
  rfl

theorem proposals_of_deadEnd {query : Text} (h : DeadEnd query) (tags : List Text) :
    proposals query tags = [] := by
  unfold proposals
  rcases (deadEnd_iff query).1 h with hodd | hnone
  · rw [if_pos hodd]
  · simp only [hnone, ite_self]

/-- Behind a break that is no dead end, every keyword or every field marker is proposed. -/
theorem proposals_of_not_deadEnd {query : Text} (h : ¬DeadEnd query) (hbreak : fragment query = [])
    (tags : List Text) : proposals query tags = keywords ∨ proposals query tags = markers := by
  rw [deadEnd_iff, not_or] at h
  obtain ⟨afterOperand, hafter⟩ := Option.ne_none_iff_exists'.1 h.2
  unfold proposals
  rw [if_neg h.1]
  simp only [hafter, hbreak, List.isEmpty_nil, if_true]
  cases afterOperand with
  | true => exact .inl rfl
  | false => exact .inr rfl

theorem upTo_nil {α : Type} (limit : Option Int) : upTo limit ([] : List α) = [] := by
  cases limit <;> simp [upTo]

theorem upTo_of_length_le {α : Type} {limit : Int} {xs : List α} (h : (xs.length : Int) ≤ limit) :
    upTo (some limit) xs = xs := by
  unfold upTo Text.position
  refine List.take_of_length_le ?_
  split <;> omega

theorem upTo_ne_nil {α : Type} {limit : Int} (h : 0 < limit) {xs : List α} (hxs : xs ≠ []) :
    upTo (some limit) xs ≠ [] := by
  have hlength := List.length_pos_iff.2 hxs
  have hposition : 0 < Text.position xs.length limit := by
    unfold Text.position
    rw [if_neg (by omega)]
    omega
  unfold upTo
  simp only [ne_eq, List.take_eq_nil_iff, hxs, or_false]
  omega

/-- Nothing is proposed at a dead end. Behind a break, whatever it is that the parser would say,
nothing is proposed only at a dead end. -/
theorem suggest_of_deadEnd (query : Text) (tags : List Text) :
    (DeadEnd query → ∀ limit, suggest query tags limit = []) ∧
      (fragment query = [] → ∀ limit, 0 < limit →
        (suggest query tags (some limit) = [] ↔ DeadEnd query)) := by
  have hsilent : DeadEnd query → ∀ limit, suggest query tags limit = [] := by
    intro h limit
    unfold suggest
    rw [proposals_of_deadEnd h, upTo_nil]
  refine ⟨hsilent, ?_⟩
  intro hbreak limit hlimit
  refine ⟨?_, fun h => hsilent h (some limit)⟩
  intro hnil
  by_cases h : DeadEnd query
  · exact h
  · refine absurd hnil (upTo_ne_nil hlimit ?_)
    rcases proposals_of_not_deadEnd h hbreak tags with hsome | hsome
    · rw [hsome]
      simp [keywords]
    · rw [hsome]
      simp [markers, Field.named]

/-- The phrase is open in front of the last break, and closed at the cursor. -/
theorem suggest_of_deadEnd_phrase :
    let query : Text := "title:\"weekly pl\"".toList
    DeadEnd query ∧ suggest query ["plan".toList] (some 10) = [] := by
  intro query
  have hdead : DeadEnd query := .inr (.inl (by decide))
  exact ⟨hdead, (suggest_of_deadEnd query ["plan".toList]).1 hdead (some 10)⟩

/-- The parser does not accept a query that begins with a connective. -/
theorem not_valid_leading_and (rest : Text) :
    (Parsed.ofText ("AND ".toList ++ rest)).isValid = false := by
  have hword : Token.Lexeme 0 [' '] "AND".toList [⟨.and, "AND".toList, 0⟩] :=
    .word (by decide) (List.all_eq_true.1 rfl) (Text.endsWord_cons.2 (by decide)) rfl
  have hdivides : Token.Divides 0 "AND ".toList [⟨.and, "AND".toList, 0⟩] :=
    .lexeme hword (.lexeme (.blank (by decide)) .done)
  have hseal : Text.SealsWord "AND ".toList := by
    rintro c ⟨⟩
    decide
  have hscan : Token.scan ("AND ".toList ++ rest) =
      (Token.scanFrom 4 rest).map ([⟨.and, "AND".toList, 0⟩] ++ ·) :=
    Token.scanFrom_append hdivides (hseal.apart rest)
  have hblank : Text.allBlank ("AND ".toList ++ rest) = false := by
    rfl
  -- Whatever follows cannot be divided, or the parser stops at the first token already.
  unfold Parsed.ofText
  rw [hblank, hscan]
  cases Token.scanFrom 4 rest with
  | error e => rfl
  | ok tokens => rfl

/-- Behind an AND that nothing stands in front of, the field markers are proposed, though no query
begins so. -/
theorem suggest_leading_and :
    (∀ rest, (Parsed.ofText (completed "AND ".toList ++ rest)).isValid = false) ∧
      suggest "AND ".toList [] (some 10) = ["tag:".toList, "title:".toList, "body:".toList] := by
  have hcompleted : completed "AND ".toList = "AND ".toList := by
    decide
  refine ⟨?_, ?_⟩
  · rw [hcompleted]
    exact not_valid_leading_and
  · decide +kernel

end Completion

end NoteQuery

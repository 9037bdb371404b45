import Mathlib.Data.List.Basic
import NoteQuery.Proofs.Query.Lexemes

/-!
# Scanning a text in two parts

A text can be cut where no word is cut: behind or in front of white space, a parenthesis, a quote or
a stray character. If the first part has tokens, those of the whole are its tokens and, moved behind
them, those of the second part; what is wrong with the second part is what is wrong with the whole
(`Token.scan_append`). The scanner may look ahead, but within one lexeme only
(`Token.scanFrom_append`), and offsets apart it finds the same wherever a text stands
(`Token.scanFrom_add`).
-/

set_option autoImplicit false

namespace NoteQuery.Token

variable {n : Nat} {t : Text} {e : LexError}

/-- What makes the scanner stop does so wherever the text stands. -/
theorem Stops.shift (h : Stops n t e) (k : Nat) : Stops (n + k) t (e.shift k) := by
  cases h with
  | stray hc => exact .stray hc
  | unterminated hrest => exact .unterminated hrest
  | unvalued hname hword hends hquote => exact .unvalued hname hword hends hquote

/-- What the scanner finds in a text, offsets apart, is the same wherever the text stands. -/
theorem scanFrom_add (n k : Nat) (t : Text) :
    scanFrom (n + k) t =
      ((scanFrom n t).map (·.map (Token.shift k))).mapError (LexError.shift k) := by
  induction n, t using lexeme_induction with
  | done n =>
    rw [scanFrom_of_divides .done, scanFrom_of_divides .done]
    rfl
  | stops n t e he =>
    rw [scanFrom_of_stops (he.shift k), scanFrom_of_stops he]
    rfl
  | lexeme n u rest us hu ih =>
    rw [scanFrom_lexeme (hu.shift k), scanFrom_lexeme hu, Nat.add_right_comm, ih]
    cases scanFrom (n + u.length) rest with
    | error e => rfl
    | ok ts => simp [Except.map, Except.mapError]

/-- Where one of two texts is empty, or white space, a parenthesis, a quote or a stray character ends
the first or begins the second, no word is cut between them. -/
theorem apart_of_seam {u v : Text} (h : Text.SealsWord u ∨ Text.EndsWord v) : Text.Apart u v := by
  rcases h with hu | hv
  · exact hu.apart v
  · exact Text.apart_of_endsWord hv

/-- A text that has tokens can be scanned apart from what follows, where one of the two is empty, or
white space, a parenthesis, a quote or a stray character stands on either side of the seam. The whole
then has tokens exactly if the second part has: those of the first without the mark for the end,
and those of the second moved behind them. An error in the whole is the error in the second part,
moved in the same way. -/
theorem scan_append {p s : Text} {tokens : List Token} (hp : scan p = .ok tokens)
    (hseam : Text.SealsWord p ∨ Text.EndsWord s) :
    ∃ ts, tokens = ts ++ [⟨.done, [], p.length⟩] ∧ (∀ t ∈ ts, t.kind ≠ .done) ∧
      (∀ all, scan (p ++ s) = .ok all ↔
        ∃ ss, scan s = .ok ss ∧ all = ts ++ ss.map (Token.shift p.length)) ∧
      ∀ e, scan (p ++ s) = .error e ↔ ∃ e', scan s = .error e' ∧ e = e'.shift p.length := by
  obtain ⟨ts, hts, rfl⟩ := scanFrom_eq_ok_iff.1 hp
  rw [Nat.zero_add]
  have hscan : scan (p ++ s) =
      (((scan s).map (·.map (Token.shift p.length))).mapError (LexError.shift p.length)).map
        (ts ++ ·) := by
    unfold scan
    rw [scanFrom_append hts (apart_of_seam hseam), scanFrom_add]
  refine ⟨ts, rfl, fun t ht => (hts.of_mem ht).1, ?_, ?_⟩
  · intro all
    rw [hscan]
    cases scan s with
    | error e => simp [Except.map, Except.mapError]
    | ok ss => simp [Except.map, Except.mapError, eq_comm]
  · intro e
    rw [hscan]
    cases scan s with
    | error e' => simp [Except.map, Except.mapError, eq_comm]
    | ok ss => simp [Except.map, Except.mapError]

/-- Behind a phrase what follows is scanned by itself, also where its own quote is not closed. -/
theorem scan_append_behind_phrase :
    let p : Text := "tag:\"a b\"".toList
    let front : List Token := [⟨.field, "tag".toList, 0⟩, ⟨.phrase, "a b".toList, 4⟩]
    (scan p = .ok (front ++ [⟨.done, [], 9⟩]) ∧ Text.SealsWord p) ∧
      scan (p ++ "or x".toList) =
        .ok (front ++ [⟨.or, "or".toList, 9⟩, ⟨.term, ['x'], 12⟩, ⟨.done, [], 13⟩]) ∧
      scan (p ++ "or\"x".toList) = .error ⟨.unterminatedPhrase, 11⟩ := by
  intro p front
  have hp : scan p = .ok (front ++ [⟨.done, [], 9⟩]) := by decide +kernel
  have hseal : Text.SealsWord p := by
    rintro c ⟨⟩
    decide
  have hok : scan "or x".toList =
      .ok [⟨.or, "or".toList, 0⟩, ⟨.term, ['x'], 3⟩, ⟨.done, [], 4⟩] := by decide +kernel
  have herror : scan "or\"x".toList = .error ⟨.unterminatedPhrase, 2⟩ := by decide +kernel
  obtain ⟨ts, hts, -, htokens, -⟩ := scan_append (s := "or x".toList) hp (.inl hseal)
  obtain ⟨-, -, -, -, hrefused⟩ := scan_append (s := "or\"x".toList) hp (.inl hseal)
  obtain rfl : front = ts := List.append_inj_left' hts rfl
  exact ⟨⟨hp, hseal⟩, (htokens _).2 ⟨_, hok, rfl⟩, (hrefused _).2 ⟨_, herror, rfl⟩⟩

end NoteQuery.Token

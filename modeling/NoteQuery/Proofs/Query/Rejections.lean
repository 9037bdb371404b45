import NoteQuery.Proofs.Query.Flaws
import NoteQuery.Proofs.Query.Refusals
import NoteQuery.Proofs.Query.RoundTrip
import NoteQuery.Proofs.Query.Tiling

/-!
# What a rejected query says

A text is rejected by the scanner, for its first flaw, or by the parser, for a token that it
refuses. Either way the error has an offset in the text, and for the parser it is the offset of a
token (`Parsed.Reported`). Some refusals cannot come from a text at all: a scanned field marker has
a value behind it (`Token.Divides.filled`), and the scanner marks the end of the tokens.
-/

set_option autoImplicit false

namespace NoteQuery

open Token (Divides)

variable {n p : Nat} {q m : Text} {ts : List Token} {e : ParseError}

/-! ## Offsets in the text -/

theorem Token.Flaw.lt_add_length (h : Flaw n q p m) : p < n + q.length := by
  cases h with
  | unterminated ht _ _ =>
    rw [ht, List.length_append, List.length_cons]
    omega
  | stray ht _ _ =>
    rw [ht, List.length_append, List.length_cons]
    omega
  | unvalued ht _ _ _ _ =>
    rw [ht]
    simp only [List.length_append, List.length_cons]
    omega

/-- A token begins within the text, and the mark for the end at its end. -/
theorem Token.Divides.position_le (h : Divides n q ts) :
    ∀ t ∈ ts ++ [⟨.done, [], n + q.length⟩], t.position ≤ n + q.length := by
  intro t ht
  rcases List.mem_append.1 ht with ht | ht
  · obtain ⟨-, u, -, before, after, rfl, hposition⟩ := h.tiles.spelled t ht
    rw [hposition, List.length_append]
    omega
  · obtain rfl := List.mem_singleton.1 ht
    exact Nat.le_refl _

/-! ## What the parser cannot meet -/

/-- Where the value of a field is due, the marker is the last token taken. -/
theorem Parser.TakesAll.exists_marker {s : State} (h : TakesAll .initial ts s)
    (hs : s.after.awaitsValue = true) : ∃ us m, ts = us ++ [m] ∧ m.kind = .field := by
  have hholds : s.Holds ts := State.holds_initial.takesAll h
  obtain ⟨us, vs, rfl, -, hin⟩ := hholds.split
  cases hafter : s.after with
  | marked f p =>
    simp only [State.Innermost, hafter] at hin
    obtain ⟨ws, m, rfl, hm, -, -⟩ := hin
    exact ⟨us ++ ws, m, by simp, hm⟩
  | _ => simp [hafter, Situation.awaitsValue] at hs

/-- Where the value of a field is due, a value is the next token of a text. -/
theorem Token.Divides.isValue_of_awaits (h : Divides n q ts) {us vs : List Token} {t d : Token}
    {s : Parser.State} (hsplit : ts ++ [d] = us ++ t :: vs)
    (hall : Parser.TakesAll .initial us s) (hs : s.after.awaitsValue = true) :
    t.kind.isValue = true := by
  obtain ⟨us, m, rfl, hm⟩ := hall.exists_marker hs
  have hchain := h.filled d
  rw [hsplit, List.append_assoc, List.singleton_append] at hchain
  exact List.isChain_iff_forall_rel_of_append_cons_cons.1 hchain rfl hm

/-- The tokens of a text are never refused for a value that is missing, a keyword where an operand
has to begin, or a lack of tokens. -/
theorem Token.Divides.cause_of_error (h : Divides n q ts) {d : Token} (hd : d.kind = .done)
    (he : Tree.ofTokens? (ts ++ [d]) = .error e) :
    (∀ label, e.cause ≠ .missingValue label) ∧ (∀ k, e.cause ≠ .unexpectedOperator k) ∧
      e.cause ≠ .unended := by
  have hended : e.cause ≠ .unended := Parser.cause_of_run hd he
  rcases Parser.run_eq_error_iff.1 he with ⟨us, t, vs, s, hsplit, hall, hrefuses⟩ | ⟨-, rfl⟩
  · refine ⟨?_, hrefuses.cause_ne_unexpectedOperator, hended⟩
    cases hrefuses with
    | missingValue hafter hvalue =>
      have hawaits : s.after.awaitsValue = true := by rw [hafter, Parser.Situation.awaitsValue]
      have hfilled := h.isValue_of_awaits hsplit hall hawaits
      rw [hvalue] at hfilled
      exact absurd hfilled (by simp)
    | _ => simp
  · exact absurd rfl hended

/-! ## Rejected texts -/

theorem QueryError.message_eq (e : QueryError) :
    e.message = e.text ++ (" (at position ".toList ++ Text.ofNat e.position ++ ")".toList) := by
  simp [message, describeAt, Text.ofInt]

namespace Parsed

/-- A text is rejected exactly if it cannot be divided into tokens or they are refused. -/
theorem ofText_eq_rejected_iff {e : QueryError} :
    ofText q = .rejected e ↔
      (∃ l, Token.scan q = .error l ∧ e = .lexical l) ∨
        ∃ ts f, Divides 0 q ts ∧ Tree.ofTokens? (ts ++ [⟨.done, [], 0 + q.length⟩]) = .error f ∧
          e = .syntactic f := by
  constructor
  · intro h
    unfold ofText at h
    split at h
    · exact absurd h (by simp)
    · split at h
      · rename_i l hscan
        exact .inl ⟨l, hscan, (Parsed.rejected.inj h).symm⟩
      · rename_i tokens hscan
        obtain ⟨ts, hts, rfl⟩ := Token.scanFrom_eq_ok_iff.1 hscan
        split at h
        · rename_i f hf
          exact .inr ⟨ts, f, hts, hf, (Parsed.rejected.inj h).symm⟩
        · exact absurd h (by simp)
        · exact absurd h (by simp)
  · intro h
    -- a text that asks for nothing has no tokens, and the parser refuses nothing in it
    have hblank : Text.allBlank q ≠ true := by
      intro hblank
      have hnone := Token.divides_of_allBlank hblank 0
      rcases h with ⟨l, hscan, -⟩ | ⟨ts, f, hts, hf, -⟩
      · rw [Token.scan, Token.scanFrom_of_divides hnone] at hscan
        exact absurd hscan (by simp)
      · obtain rfl := hts.unique hnone
        exact absurd hf (by simp [Tree.ofTokens?, Parser.run, Parser.step, Parser.State.initial])
    rcases h with ⟨l, hscan, rfl⟩ | ⟨ts, f, hts, hf, rfl⟩
    · simp only [ofText, if_neg hblank, hscan]
    · have hscan := Token.scanFrom_of_divides hts
      simp only [ofText, if_neg hblank, Token.scan, hscan, hf]

/-- What a caller can rely on in the error of a rejected text. -/
structure Reported (q : Text) (e : QueryError) : Prop where
  /-- There is no tree. -/
  root : (ofText q).root? = none
  /-- The error is lexical exactly if the text cannot be divided into tokens. -/
  lexical : e.kindName = "LexError".toList ↔ ∃ l, Token.scan q = .error l
  /-- Otherwise it is one of the order of tokens. -/
  syntactic : e.kindName = "ParseError".toList ↔ ∃ tokens, Token.scan q = .ok tokens
  /-- The message ends with the offset. -/
  message : e.message =
    e.text ++ (" (at position ".toList ++ Text.ofNat e.position ++ ")".toList)
  /-- The offset is that of a character of the text or its end. -/
  position_le : e.position ≤ q.length
  /-- A syntax error has the offset of a token. -/
  token : ∀ tokens, Token.scan q = .ok tokens → ∃ t ∈ tokens, t.position = e.position

theorem reported_of_rejected {e : QueryError} (h : ofText q = .rejected e) : Reported q e := by
  have hroot : (ofText q).root? = none := by
    rw [h]
    rfl
  have hkinds : "LexError".toList ≠ "ParseError".toList := by decide
  rcases ofText_eq_rejected_iff.1 h with ⟨l, hscan, rfl⟩ | ⟨ts, f, hts, hf, rfl⟩
  · have hfailed : ¬ ∃ tokens, Token.scan q = .ok tokens := by
      rw [hscan]
      simp
    refine ⟨hroot, iff_of_true rfl ⟨l, hscan⟩, iff_of_false hkinds hfailed,
      QueryError.message_eq _, ?_, ?_⟩
    · have hlt := (Token.flaw_of_scanFrom hscan).1.lt_add_length
      rw [Nat.zero_add] at hlt
      exact Nat.le_of_lt hlt
    · intro tokens htokens
      rw [hscan] at htokens
      exact absurd htokens (by simp)
  · have hscan : Token.scan q = _ := Token.scanFrom_of_divides hts
    obtain ⟨t, ht, hposition⟩ :=
      Parser.exists_position_of_run hf (hts.cause_of_error rfl hf).2.2
    have hscanned : ¬ ∃ l, Token.scan q = .error l := by
      rw [hscan]
      simp
    refine ⟨hroot, iff_of_false hkinds.symm hscanned, iff_of_true rfl ⟨_, hscan⟩,
      QueryError.message_eq _, ?_, ?_⟩
    · have hle := hts.position_le t ht
      rw [hposition, Nat.zero_add] at hle
      exact hle
    · intro tokens htokens
      rw [hscan] at htokens
      obtain rfl := Except.ok.inj htokens
      exact ⟨t, ht, hposition⟩

/-- The error of a rejected text is of the kind of the stage that noticed it, its message ends with
an offset of the text, which for a syntax error is that of a token, and there is no tree. Whatever
the text, its tokens are never refused for a value that is missing, for a keyword where an operand
has to begin, or because they have run out. -/
theorem rejections_reported (q : Text) :
    (∀ e, ofText q = .rejected e → Reported q e) ∧
      ∀ tokens e, Token.scan q = .ok tokens → Tree.ofTokens? tokens = .error e →
        (∀ label, e.cause ≠ .missingValue label) ∧ (∀ k, e.cause ≠ .unexpectedOperator k) ∧
          e.cause ≠ .unended := by
  refine ⟨fun e => reported_of_rejected, fun tokens e hscan he => ?_⟩
  obtain ⟨ts, hts, rfl⟩ := Token.scanFrom_eq_ok_iff.1 hscan
  exact hts.cause_of_error rfl he

/-- An empty phrase behind a field marker, with the offset of the phrase. -/
theorem rejections_reported_emptyPhrase :
    let e : QueryError := .syntactic ⟨.emptyPhrase, 6⟩
    ofText "a tag:\"\"".toList = .rejected e ∧ Reported "a tag:\"\"".toList e ∧
      e.message = "Empty phrase (at position 6)".toList := by
  intro e
  have h : ofText "a tag:\"\"".toList = .rejected e := by decide +kernel
  exact ⟨h, (rejections_reported _).1 e h, by decide⟩

end Parsed

end NoteQuery

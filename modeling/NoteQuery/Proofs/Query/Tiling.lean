import Mathlib.Data.List.Chain
import NoteQuery.Proofs.Query.Lexemes

/-!
# The tokens of a query cover its text

Every token stands for a span of the text: a phrase for its value in quotes, a field marker for its
name and the colon, every other token for its value. `Token.Tiles` says that the spans lie one
behind the other with nothing but white space around them, and that no word is cut by them. It is
derived in two steps: the lexemes of a text laid out one by one (`Token.Laid`) give the spans, and
the division of the text gives the words (`Token.Divides.tiles`). `Token.tiles_of_scan` says it of
what the scanner finds.
-/

set_option autoImplicit false

namespace NoteQuery

/-! ## Places in a text -/

namespace Text

/-- Whether `u` stands at offset `p` of a text whose first character has offset `n`. -/
def StandsAt (n : Nat) (t : Text) (p : Nat) (u : Text) : Prop :=
  ∃ before after, t = before ++ (u ++ after) ∧ p = n + before.length

/-- Whether the characters from offset `a` up to offset `b` are a whole word of a text whose first
character has offset `n`. -/
def WordBetween (n : Nat) (t : Text) (a b : Nat) : Prop :=
  ∃ before w after, t = before ++ (w ++ after) ∧ a = n + before.length ∧ b = a + w.length ∧
    WholeWord before w after

theorem standsAt_front (n : Nat) (u rest : Text) : StandsAt n (u ++ rest) n u :=
  ⟨[], rest, rfl, rfl⟩

theorem StandsAt.append_front {n p : Nat} {u rest v : Text}
    (h : StandsAt (n + u.length) rest p v) : StandsAt n (u ++ rest) p v := by
  obtain ⟨before, after, rfl, rfl⟩ := h
  refine ⟨u ++ before, after, by simp, ?_⟩
  rw [List.length_append, Nat.add_assoc]

theorem StandsAt.le {n p : Nat} {t u : Text} (h : StandsAt n t p u) : n ≤ p := by
  obtain ⟨before, after, -, rfl⟩ := h
  exact Nat.le_add_right n before.length

/-- A character of two texts together stands in the first or in the second. -/
theorem standsAt_append {n p : Nat} {u rest : Text} {c : Char} (h : StandsAt n (u ++ rest) p [c]) :
    p < n + u.length ∧ StandsAt n u p [c] ∨ StandsAt (n + u.length) rest p [c] := by
  obtain ⟨before, after, hsplit, rfl⟩ := h
  rcases split_cases hsplit with ⟨a, ha, rfl, hafter⟩ | ⟨a, rfl, hrest⟩
  · left
    obtain ⟨d, a, rfl⟩ := List.exists_cons_of_ne_nil ha
    rw [List.singleton_append, List.cons_append] at hafter
    obtain ⟨rfl, -⟩ := List.cons.inj hafter
    refine ⟨?_, before, a, by simp, rfl⟩
    rw [List.length_append, List.length_cons]
    omega
  · right
    refine ⟨a, after, hrest, ?_⟩
    rw [List.length_append, Nat.add_assoc]

theorem wordBetween_front {n : Nat} {w rest : Text} (hne : w ≠ [])
    (hw : ∀ c ∈ w, isWord c = true) (hr : EndsWord rest) :
    WordBetween n (w ++ rest) n (n + w.length) :=
  ⟨[], w, rest, rfl, rfl, rfl, hne, hw, by simp [SealsWord], hr⟩

theorem WordBetween.append_front {n a b : Nat} {u rest : Text}
    (h : WordBetween (n + u.length) rest a b) (hu : Apart u rest) :
    WordBetween n (u ++ rest) a b := by
  obtain ⟨before, w, after, rfl, rfl, rfl, hw⟩ := h
  refine ⟨u ++ before, w, after, by simp, ?_, rfl, hw.append_front hu⟩
  rw [List.length_append, Nat.add_assoc]

end Text

namespace Token

/-! ## Spans -/

/-- How many characters of the text a token stands for. -/
def extent (t : Token) : Nat :=
  match t.kind with
  | .field => t.value.length + 1
  | .phrase => t.value.length + 2
  | _ => t.value.length

/-- The offset behind the last character of a token. -/
def stop (t : Token) : Nat :=
  t.position + t.extent

theorem stop_of_bare {t : Token} (h : t.kind.IsKeyword ∨ t.kind = .term) :
    t.stop = t.position + t.value.length := by
  unfold stop extent
  rcases h with (hk | hk | hk) | hk <;> rw [hk]

/-- Whether a token is written with the characters `u`. The mark for the end has none. -/
def Spells (t : Token) (u : Text) : Prop :=
  match t.kind with
  | .field => ∃ letters, Text.IsName letters ∧ t.value = letters.map Char.toLower ∧
      u = letters ++ [':']
  | .opening => t.value = u ∧ u = ['(']
  | .closing => t.value = u ∧ u = [')']
  | .phrase => '"' ∉ t.value ∧ u = '"' :: (t.value ++ ['"'])
  | .and | .or | .not | .term => t.value = u ∧ u ≠ []
  | .done => False

theorem Spells.length_eq {t : Token} {u : Text} (h : t.Spells u) : u.length = t.extent := by
  unfold Spells at h
  unfold extent
  split at h
  · rename_i hk
    obtain ⟨letters, -, hvalue, rfl⟩ := h
    simp [hk, hvalue]
  · rename_i hk
    simp [hk, h.1]
  · rename_i hk
    simp [hk, h.1]
  · rename_i hk
    obtain ⟨-, rfl⟩ := h
    simp [hk]
  all_goals simp_all

theorem Spells.ne_nil {t : Token} {u : Text} (h : t.Spells u) : u ≠ [] := by
  unfold Spells at h
  split at h
  · obtain ⟨letters, -, -, rfl⟩ := h
    simp
  · simp [h.2]
  · simp [h.2]
  · simp [h.2]
  all_goals simp_all

/-- Every token that is written has a span of its own. -/
theorem Spells.position_lt_stop {t : Token} {u : Text} (h : t.Spells u) : t.position < t.stop := by
  have hlength := List.length_pos_iff.2 h.ne_nil
  rw [h.length_eq] at hlength
  unfold stop
  omega

/-- A text whose first character has offset `n`, laid out character by character: white space and
spans of tokens. -/
inductive Laid : Nat → Text → List Token → Prop
  | done {n : Nat} : Laid n [] []
  /-- White space belongs to no token. -/
  | blank {n : Nat} {c : Char} {rest : Text} {ts : List Token} : Text.isBlank c = true →
      Laid (n + 1) rest ts → Laid n (c :: rest) ts
  | token {n : Nat} {u rest : Text} {t : Token} {ts : List Token} : t.position = n → t.Spells u →
      Laid (n + u.length) rest ts → Laid n (u ++ rest) (t :: ts)

theorem Lexeme.laid {n : Nat} {u rest : Text} {us ts : List Token} (h : Lexeme n rest u us)
    (hrest : Laid (n + u.length) rest ts) : Laid n (u ++ rest) (us ++ ts) := by
  cases h with
  | blank hc => exact .blank hc hrest
  | opening => exact .token rfl ⟨rfl, rfl⟩ hrest
  | closing => exact .token rfl ⟨rfl, rfl⟩ hrest
  | phrase hp => exact .token rfl ⟨hp, rfl⟩ hrest
  | word hne _ _ hts =>
    rcases ofWord_cases hts with
      ⟨letters, value, hname, hvalue, rfl, rfl⟩ | ⟨letters, hname, -, rfl, rfl⟩ | ⟨-, k, hk, rfl⟩
    · -- the value begins behind the colon
      have hend : n + (letters ++ ':' :: value).length =
          n + (letters ++ [':']).length + value.length := by
        simp only [List.length_append, List.length_cons, List.length_nil]
        omega
      rw [hend] at hrest
      have hterm : Laid (n + (letters ++ [':']).length) (value ++ rest)
          (⟨.term, value, n + letters.length + 1⟩ :: ts) :=
        .token (by simp [Nat.add_assoc]) ⟨rfl, hvalue⟩ hrest
      have hmarker : Laid n (letters ++ [':'] ++ (value ++ rest))
          (⟨.field, letters.map Char.toLower, n⟩ ::
            ⟨.term, value, n + letters.length + 1⟩ :: ts) :=
        .token rfl ⟨letters, hname, rfl, rfl⟩ hterm
      simpa using hmarker
    · exact .token rfl ⟨letters, hname, rfl, rfl⟩ hrest
    · refine .token rfl ?_ hrest
      rcases isKeyword_or_term hk with (rfl | rfl | rfl) | rfl
      all_goals exact ⟨rfl, hne⟩

theorem Divides.laid {n : Nat} {t : Text} {ts : List Token} (h : Divides n t ts) : Laid n t ts := by
  induction h with
  | done => exact .done
  | lexeme hu _ ih => exact hu.laid ih

theorem Laid.spelled {n : Nat} {q : Text} {ts : List Token} (h : Laid n q ts) :
    ∀ t ∈ ts, ∃ u, t.Spells u ∧ Text.StandsAt n q t.position u := by
  induction h with
  | done => simp
  | @blank n c rest ts _ _ ih =>
    intro t ht
    obtain ⟨u, hu, hstands⟩ := ih t ht
    exact ⟨u, hu, Text.StandsAt.append_front (u := [c]) hstands⟩
  | @token n u rest t ts hposition hu _ ih =>
    intro t' ht'
    rcases List.mem_cons.1 ht' with rfl | ht'
    · refine ⟨u, hu, ?_⟩
      rw [hposition]
      exact Text.standsAt_front n u rest
    · obtain ⟨v, hv, hstands⟩ := ih t' ht'
      exact ⟨v, hv, hstands.append_front⟩

theorem Laid.ordered {n : Nat} {q : Text} {ts : List Token} (h : Laid n q ts) :
    ts.Pairwise fun t u => t.stop ≤ u.position := by
  induction h with
  | done => exact .nil
  | blank _ _ ih => exact ih
  | @token n u rest t ts hposition hu hrest ih =>
    refine List.pairwise_cons.2 ⟨?_, ih⟩
    intro t' ht'
    obtain ⟨v, -, hstands⟩ := hrest.spelled t' ht'
    have hle := hstands.le
    rw [hu.length_eq] at hle
    rw [stop, hposition]
    exact hle

theorem Laid.gaps {n : Nat} {q : Text} {ts : List Token} (h : Laid n q ts) {p : Nat} {c : Char}
    (hc : Text.StandsAt n q p [c]) (hgap : ∀ t ∈ ts, ¬ (t.position ≤ p ∧ p < t.stop)) :
    Text.isBlank c = true := by
  induction h with
  | done =>
    obtain ⟨before, after, hnil, -⟩ := hc
    simp at hnil
  | @blank n d rest ts hd _ ih =>
    rcases Text.standsAt_append (u := [d]) hc with ⟨hlt, before, after, hsplit, rfl⟩ | hrest
    · cases before with
      | nil =>
        rw [List.nil_append, List.singleton_append] at hsplit
        obtain ⟨rfl, -⟩ := List.cons.inj hsplit
        exact hd
      | cons b before =>
        simp at hlt
    · exact ih hrest hgap
  | @token n u rest t ts hposition hu _ ih =>
    rcases Text.standsAt_append hc with ⟨hlt, hstands⟩ | hrest
    · have hout := hgap t List.mem_cons_self
      have hle := hstands.le
      rw [hu.length_eq] at hlt
      rw [stop, hposition] at hout
      omega
    · exact ih hrest fun t' ht' => hgap t' (List.mem_cons_of_mem t ht')

/-! ## Words -/

theorem Divides.phrase_of_quote {n : Nat} {q : Text} {ts : List Token} (h : Divides n q ts)
    (hq : q.head? = some '"') : ∃ p rest, ts = ⟨.phrase, p, n⟩ :: rest := by
  cases h with
  | done => simp at hq
  | @lexeme _ u rest us ts hu _ =>
    cases hu with
    | @blank c hc =>
      obtain rfl := Option.some.inj hq
      exact absurd hc (by decide)
    | opening => exact absurd hq (by simp)
    | closing => exact absurd hq (by simp)
    | @phrase p hp => exact ⟨p, ts, rfl⟩
    | word hne hw _ _ =>
      obtain ⟨c, cs, rfl⟩ := List.exists_cons_of_ne_nil hne
      obtain rfl := Option.some.inj hq
      exact absurd (hw _ List.mem_cons_self) (by decide)

theorem Divides.filled {n : Nat} {q : Text} {ts : List Token} (h : Divides n q ts) (e : Token) :
    (ts ++ [e]).IsChain fun m v => m.kind = .field → v.kind.isValue = true := by
  induction h with
  | done => exact .singleton e
  | @lexeme n u rest us ts hu hrest ih =>
    rw [List.append_assoc]
    cases hu with
    | blank _ => exact ih
    | opening => exact List.isChain_cons.2 ⟨by simp, ih⟩
    | closing => exact List.isChain_cons.2 ⟨by simp, ih⟩
    | phrase _ => exact List.isChain_cons.2 ⟨by simp, ih⟩
    | word _ _ _ hts =>
      rcases ofWord_cases hts with
        ⟨letters, value, -, -, -, rfl⟩ | ⟨letters, -, hquote, -, rfl⟩ | ⟨-, k, hk, rfl⟩
      · exact List.isChain_cons.2 ⟨by simp [Kind.isValue], List.isChain_cons.2 ⟨by simp, ih⟩⟩
      · obtain ⟨p, ts', rfl⟩ := hrest.phrase_of_quote hquote
        exact List.isChain_cons.2 ⟨by simp [Kind.isValue], ih⟩
      · refine List.isChain_cons.2 ⟨?_, ih⟩
        intro v _ hfield
        rcases isKeyword_or_term hk with (rfl | rfl | rfl) | rfl <;> simp at hfield

/-- The tokens of a lexeme are delimiters and phrases, or what a whole word stands for. -/
theorem Lexeme.delimiters_or_word {n : Nat} {u rest : Text} {us : List Token}
    (h : Lexeme n rest u us) :
    (∀ t ∈ us, t.kind = .opening ∨ t.kind = .closing ∨ t.kind = .phrase) ∨
      Text.WordBetween n (u ++ rest) n (n + u.length) ∧ ofWord n u rest = .ok us := by
  cases h with
  | blank _ => simp
  | opening => simp
  | closing => simp
  | phrase _ => simp
  | word hne hw hr hts => exact .inr ⟨Text.wordBetween_front hne hw hr, hts⟩

/-- Whether the tokens of a text whose first character has offset `n` cover it exactly. -/
structure Tiles (n : Nat) (q : Text) (ts : List Token) : Prop where
  /-- Each token is written at its offset, with at least one character. -/
  spelled : ∀ t ∈ ts, t.position < t.stop ∧ ∃ u, t.Spells u ∧ Text.StandsAt n q t.position u
  /-- No token begins before the one in front of it has ended. -/
  ordered : ts.Pairwise fun t u => t.stop ≤ u.position
  /-- A character that belongs to no token is white space. -/
  gaps : ∀ p c, Text.StandsAt n q p [c] → (∀ t ∈ ts, ¬ (t.position ≤ p ∧ p < t.stop)) →
    Text.isBlank c = true
  /-- A value stands right behind a marker; a marker with a bare value, or in front of a phrase
  alone, is a whole word. -/
  markers : ∀ t ∈ ts, t.kind = .field → ∃ v ∈ ts, v.position = t.stop ∧
    (v.kind = .term ∧ Text.WordBetween n q t.position v.stop ∨
      v.kind = .phrase ∧ Text.WordBetween n q t.position t.stop)
  /-- Every other word is whole, does not begin with a name and a colon, and is a keyword exactly
  if its upper case is that. -/
  words : ∀ t ∈ ts, t.kind.IsKeyword ∨ t.kind = .term →
    (∀ m ∈ ts, m.kind = .field → m.stop ≠ t.position) →
    Text.WordBetween n q t.position t.stop ∧
      (∀ letters rest, Text.IsName letters → t.value ≠ letters ++ ':' :: rest) ∧
      ∀ k : Kind, k.IsKeyword → (t.kind = k ↔ Text.upper t.value = k.name.toList)

theorem Divides.markers {n : Nat} {q : Text} {ts : List Token} (h : Divides n q ts) :
    ∀ t ∈ ts, t.kind = .field → ∃ v ∈ ts, v.position = t.stop ∧
      (v.kind = .term ∧ Text.WordBetween n q t.position v.stop ∨
        v.kind = .phrase ∧ Text.WordBetween n q t.position t.stop) := by
  induction h with
  | done => simp
  | @lexeme n u rest us ts hu hrest ih =>
    intro t ht hfield
    rcases List.mem_append.1 ht with ht | ht
    · rcases hu.delimiters_or_word with hdelimiters | ⟨hword, hts⟩
      · rcases hdelimiters t ht with hk | hk | hk <;> simp [hk] at hfield
      rcases ofWord_cases hts with
        ⟨letters, value, -, -, rfl, rfl⟩ | ⟨letters, -, hquote, rfl, rfl⟩ | ⟨-, k, hk, rfl⟩
      · have ht' : t = ⟨.field, letters.map Char.toLower, n⟩ := by
          rcases List.mem_cons.1 ht with rfl | ht
          · rfl
          · obtain rfl := List.mem_singleton.1 ht
            simp at hfield
        subst ht'
        refine ⟨⟨.term, value, n + letters.length + 1⟩, by simp, ?_, .inl ⟨rfl, ?_⟩⟩
        · simp [stop, extent, Nat.add_assoc]
        · have hstop : (⟨.term, value, n + letters.length + 1⟩ : Token).stop =
              n + (letters ++ ':' :: value).length := by
            simp only [stop, extent, List.length_append, List.length_cons]
            omega
          rw [hstop]
          exact hword
      · obtain rfl := List.mem_singleton.1 ht
        obtain ⟨p, ts', rfl⟩ := hrest.phrase_of_quote hquote
        refine ⟨⟨.phrase, p, n + (letters ++ [':']).length⟩, by simp, ?_, .inr ⟨rfl, ?_⟩⟩
        · simp [stop, extent]
        · have hstop : (⟨.field, letters.map Char.toLower, n⟩ : Token).stop =
              n + (letters ++ [':']).length := by
            simp [stop, extent]
          rw [hstop]
          exact hword
      · obtain rfl := List.mem_singleton.1 ht
        rcases isKeyword_or_term hk with (rfl | rfl | rfl) | rfl <;> simp at hfield
    · obtain ⟨v, hv, hposition, hword⟩ := ih t ht hfield
      refine ⟨v, List.mem_append_right us hv, hposition, ?_⟩
      rcases hword with ⟨hterm, hword⟩ | ⟨hphrase, hword⟩
      · exact .inl ⟨hterm, hword.append_front hu.apart⟩
      · exact .inr ⟨hphrase, hword.append_front hu.apart⟩

theorem Divides.words {n : Nat} {q : Text} {ts : List Token} (h : Divides n q ts) :
    ∀ t ∈ ts, t.kind.IsKeyword ∨ t.kind = .term →
      (∀ m ∈ ts, m.kind = .field → m.stop ≠ t.position) →
      Text.WordBetween n q t.position t.stop ∧
        (∀ letters rest, Text.IsName letters → t.value ≠ letters ++ ':' :: rest) ∧
        ∀ k : Kind, k.IsKeyword → (t.kind = k ↔ Text.upper t.value = k.name.toList) := by
  induction h with
  | done => simp
  | @lexeme n u rest us ts hu _ ih =>
    intro t ht hbare hfree
    rcases List.mem_append.1 ht with ht | ht
    · rcases hu.delimiters_or_word with hdelimiters | ⟨hword, hts⟩
      · rcases hdelimiters t ht with hk | hk | hk <;> simp [hk, Kind.IsKeyword] at hbare
      rcases ofWord_cases hts with
        ⟨letters, value, -, -, rfl, rfl⟩ | ⟨letters, -, -, rfl, rfl⟩ | ⟨hfield, k, hk, rfl⟩
      · rcases List.mem_cons.1 ht with rfl | ht
        · simp [Kind.IsKeyword] at hbare
        · -- the value is not free: its marker ends where it begins
          obtain rfl := List.mem_singleton.1 ht
          refine absurd ?_ (hfree ⟨.field, letters.map Char.toLower, n⟩ (by simp) rfl)
          simp [stop, extent, Nat.add_assoc]
      · obtain rfl := List.mem_singleton.1 ht
        simp [Kind.IsKeyword] at hbare
      · obtain rfl := List.mem_singleton.1 ht
        refine ⟨?_, splitField?_eq_none_iff.1 hfield, fun k' hk' => ?_⟩
        · rwa [stop_of_bare hbare]
        · rw [← keyword?_eq_some_iff_of_isKeyword hk']
          rcases hk with hkey | ⟨hnone, rfl⟩
          · rw [hkey, Option.some_inj]
          · rw [hnone]
            rcases hk' with rfl | rfl | rfl <;> simp
    · have hfree' : ∀ m ∈ ts, m.kind = .field → m.stop ≠ t.position := by
        intro m hm
        exact hfree m (List.mem_append_right us hm)
      obtain ⟨hword, hname, hkeyword⟩ := ih t ht hbare hfree'
      exact ⟨hword.append_front hu.apart, hname, hkeyword⟩

/-- The tokens of a text cover it exactly. -/
theorem Divides.tiles {n : Nat} {q : Text} {ts : List Token} (h : Divides n q ts) :
    Tiles n q ts where
  spelled := by
    intro t ht
    obtain ⟨u, hu, hstands⟩ := h.laid.spelled t ht
    exact ⟨hu.position_lt_stop, u, hu, hstands⟩
  ordered := h.laid.ordered
  gaps := fun _ _ hc hgap => h.laid.gaps hc hgap
  markers := h.markers
  words := h.words

/-- The tokens that the scanner finds cover the query exactly, and the mark for the end stands at
its end. -/
theorem tiles_of_scan {q : Text} {tokens : List Token} (h : scan q = .ok tokens) :
    ∃ ts, tokens = ts ++ [⟨.done, [], q.length⟩] ∧ Tiles 0 q ts := by
  obtain ⟨ts, hts, rfl⟩ := scanFrom_eq_ok_iff.1 h
  exact ⟨ts, by rw [Nat.zero_add], hts.tiles⟩

/-- A marker with a phrase, a keyword in lower case, and a marker with a bare value in a group. -/
theorem tiles_of_scan_group :
    let tokens : List Token := [⟨.field, "title".toList, 0⟩, ⟨.phrase, "a b".toList, 6⟩,
      ⟨.or, "or".toList, 12⟩, ⟨.opening, ['('], 14⟩, ⟨.field, "tag".toList, 15⟩,
      ⟨.term, "x:y".toList, 19⟩, ⟨.closing, [')'], 22⟩, ⟨.done, [], 23⟩]
    scan "Title:\"a b\" or(TAG:x:y)".toList = .ok tokens ∧
      ∃ ts, tokens = ts ++ [⟨.done, [], 23⟩] ∧ Tiles 0 "Title:\"a b\" or(TAG:x:y)".toList ts := by
  intro tokens
  have hscan : scan "Title:\"a b\" or(TAG:x:y)".toList = .ok tokens := by
    decide +kernel
  exact ⟨hscan, tiles_of_scan hscan⟩

end Token

end NoteQuery

import NoteQuery.Proofs.Query.Words

/-!
# How a text divides into tokens

`Token.Divides` says what the tokens of a text are without running a scanner: the text is a row of
lexemes, and each lexeme stands for its tokens. `Token.scanFrom_eq_ok_iff` ties the scanner to it,
and the rest of the module is read off the relation: what no token can hold, what no divided text
can hold outside quotes, that a seam at which no word is cut is invisible (`Token.scanFrom_append`),
and that what begins a divided text can be divided itself (`Token.Divides.of_append`).
-/

set_option autoImplicit false

namespace NoteQuery

/-! ## Seams between words -/

namespace Text

/-- Whether a text does not go on with a word that ends in front of it. -/
def EndsWord (rest : Text) : Prop :=
  ∀ c ∈ rest.head?, isWord c = false

/-- Whether no word runs across the seam between two texts. -/
def Apart (u v : Text) : Prop :=
  ∀ c ∈ u.getLast?, isWord c = true → EndsWord v

/-- Whether no word can run on behind a text. -/
def SealsWord (u : Text) : Prop :=
  ∀ c ∈ u.getLast?, isWord c = false

/-- A run of word characters between two texts, with no word character on either side. -/
structure WholeWord (before w after : Text) : Prop where
  ne_nil : w ≠ []
  word : ∀ c ∈ w, isWord c = true
  /-- No word character stands in front. -/
  front : SealsWord before
  /-- No word character follows. -/
  back : EndsWord after

theorem endsWord_nil : EndsWord [] := by
  simp [EndsWord]

theorem endsWord_cons {c : Char} {rest : Text} : EndsWord (c :: rest) ↔ isWord c = false := by
  simp [EndsWord]

theorem apart_of_endsWord {u v : Text} (h : EndsWord v) : Apart u v :=
  fun _ _ _ => h

theorem mem_getLast?_append {c : Char} {u u' : Text} (h : c ∈ u'.getLast?) :
    c ∈ (u ++ u').getLast? := by
  rw [Option.mem_def] at h ⊢
  rw [List.getLast?_append, h]
  rfl

/-- What stands in front of the last part does not matter for a seam. -/
theorem Apart.of_append {u u' v : Text} (h : Apart (u ++ u') v) : Apart u' v :=
  fun c hc => h c (mem_getLast?_append hc)

theorem SealsWord.apart {u : Text} (h : SealsWord u) (v : Text) : Apart u v := by
  intro c hc hword
  rw [h c hc] at hword
  exact absurd hword (by simp)

theorem SealsWord.of_append {u u' : Text} (h : SealsWord (u ++ u')) : SealsWord u' :=
  fun c hc => h c (mem_getLast?_append hc)

/-- A text of word characters alone seals nothing, unless it is empty. -/
theorem SealsWord.eq_nil {u : Text} (h : SealsWord u) (hw : ∀ c ∈ u, isWord c = true) :
    u = [] := by
  cases hlast : u.getLast? with
  | none => exact List.getLast?_eq_none_iff.1 hlast
  | some c =>
    have hc := hw c (List.mem_of_getLast? hlast)
    rw [h c hlast] at hc
    exact absurd hc (by simp)

/-- What stands in front of a whole word can be longer, if no word runs across the seam. -/
theorem WholeWord.append_front {u before w after : Text} (h : WholeWord before w after)
    (hu : Apart u (before ++ (w ++ after))) : WholeWord (u ++ before) w after := by
  refine { h with front := ?_ }
  cases before with
  | cons d before =>
    intro c hc
    refine h.front c ?_
    rw [List.getLast?_append, List.getLast?_eq_some_getLast (List.cons_ne_nil d before)] at hc
    rwa [List.getLast?_eq_some_getLast (List.cons_ne_nil d before)]
  | nil =>
    intro c hc
    rw [List.append_nil] at hc
    -- a word character in front would make the word go on with the first one of `w`
    cases hword : isWord c with
    | false => rfl
    | true =>
      have hends := hu c hc hword
      obtain ⟨d, ds, rfl⟩ := List.exists_cons_of_ne_nil h.ne_nil
      have hd := h.word d List.mem_cons_self
      rw [List.nil_append, List.cons_append, endsWord_cons, hd] at hends
      exact absurd hends (by simp)

theorem WholeWord.of_append_front {u before w after : Text}
    (h : WholeWord (u ++ before) w after) : WholeWord before w after :=
  { h with front := h.front.of_append }

theorem not_word_of_delimiter {c : Char} (h : isDelimiter c = true) : isWord c = false := by
  simp [isWord, h]

theorem ne_quote_of_word {c : Char} (h : isWord c = true) : c ≠ '"' := by
  rintro rfl
  simp [not_word_of_delimiter (c := '"') (by decide)] at h

theorem not_stray_of_word {c : Char} (h : isWord c = true) : isStray c = false :=
  ((isWord_iff c).1 h).2.2

theorem not_stray_of_blank {c : Char} (h : isBlank c = true) : isStray c = false := by
  simp [isStray, h]

/-- Where a text is split in two ways, the second seam lies within the first part of the other
split, or behind it. -/
theorem split_cases {a b c d : Text} (h : a ++ b = c ++ d) :
    (∃ e, e ≠ [] ∧ a = c ++ e ∧ d = e ++ b) ∨ ∃ e, c = a ++ e ∧ b = e ++ d := by
  rcases List.append_eq_append_iff.1 h with ⟨e, hc, hb⟩ | ⟨e, ha, hd⟩
  · exact .inr ⟨e, hc, hb⟩
  · by_cases he : e = []
    · subst he
      exact .inr ⟨[], by simpa using ha.symm, by simpa using hd.symm⟩
    · exact .inl ⟨e, he, ha, hd⟩

/-- A word is taken whole, and no more than it, when what follows does not go on with it. -/
theorem takeWhile_word {w rest : Text} (hw : ∀ c ∈ w, isWord c = true) (hr : EndsWord rest) :
    (w ++ rest).takeWhile isWord = w := by
  rw [List.takeWhile_append_of_pos hw]
  cases rest with
  | nil => simp
  | cons c cs => simp [endsWord_cons.1 hr]

theorem dropWhile_word {w rest : Text} (hw : ∀ c ∈ w, isWord c = true) (hr : EndsWord rest) :
    (w ++ rest).dropWhile isWord = rest := by
  rw [List.dropWhile_append_of_pos hw]
  cases rest with
  | nil => rfl
  | cons c cs => simp [endsWord_cons.1 hr]

theorem endsWord_dropWhile (t : Text) : EndsWord (t.dropWhile isWord) := by
  induction t with
  | nil => exact endsWord_nil
  | cons c cs ih =>
    cases hc : isWord c with
    | true => simpa [hc] using ih
    | false => simp [hc, endsWord_cons]

/-- Whether a character stands somewhere in a text with an even number of quotes in front of it. -/
def Outside (c : Char) (u : Text) : Prop :=
  ∃ a b, u = a ++ c :: b ∧ a.count '"' % 2 = 0

theorem Outside.mem {c : Char} {u : Text} (h : Outside c u) : c ∈ u := by
  obtain ⟨a, b, rfl, -⟩ := h
  exact List.mem_append_right a List.mem_cons_self

/-- Only the two quotes of a phrase have an even number of quotes in front of them. -/
theorem Outside.eq_quote {c : Char} {p : Text} (h : Outside c ('"' :: (p ++ ['"'])))
    (hp : '"' ∉ p) : c = '"' := by
  obtain ⟨a, b, hu, heven⟩ := h
  cases a with
  | nil => exact (List.cons.inj hu).1.symm
  | cons d a =>
    obtain ⟨rfl, htail⟩ := List.cons.inj hu
    rcases List.append_eq_append_iff.1 htail with ⟨a', rfl, hlast⟩ | ⟨p', rfl, -⟩
    · cases a' with
      | nil => exact (List.cons.inj hlast).1.symm
      | cons _ a' => exact absurd (List.cons.inj hlast).2 (by simp)
    · have hcount : a.count '"' = 0 := by
        rw [List.count_eq_zero]
        intro hm
        exact hp (List.mem_append_left _ hm)
      simp [hcount] at heven

theorem Outside.append_right {c : Char} {u : Text} (h : Outside c u) (v : Text) :
    Outside c (u ++ v) := by
  obtain ⟨a, b, rfl, heven⟩ := h
  exact ⟨a, b ++ v, by simp, heven⟩

theorem Outside.append_left {c : Char} {u v : Text} (h : Outside c v)
    (hu : u.count '"' % 2 = 0) : Outside c (u ++ v) := by
  obtain ⟨a, b, rfl, heven⟩ := h
  refine ⟨u ++ a, b, by simp, ?_⟩
  rw [List.count_append]
  omega

end Text

namespace Token

/-! ## Lexemes -/

/-- A lexeme at offset `n` in front of `rest`, and the tokens that it stands for. -/
inductive Lexeme (n : Nat) (rest : Text) : Text → List Token → Prop
  /-- White space stands for nothing. -/
  | blank {c : Char} : Text.isBlank c = true → Lexeme n rest [c] []
  | opening : Lexeme n rest ['('] [⟨.opening, ['('], n⟩]
  /-- A closing parenthesis stands for itself. -/
  | closing : Lexeme n rest [')'] [⟨.closing, [')'], n⟩]
  /-- A phrase runs from one quote to the next. -/
  | phrase {p : Text} : '"' ∉ p → Lexeme n rest ('"' :: (p ++ ['"'])) [⟨.phrase, p, n⟩]
  | word {w : Text} {ts : List Token} : w ≠ [] → (∀ c ∈ w, Text.isWord c = true) →
      Text.EndsWord rest → ofWord n w rest = .ok ts → Lexeme n rest w ts

/-- A text whose first character has offset `n`, and the tokens into which it divides. -/
inductive Divides : Nat → Text → List Token → Prop
  | done {n : Nat} : Divides n [] []
  | lexeme {n : Nat} {u rest : Text} {us ts : List Token} :
      Lexeme n rest u us → Divides (n + u.length) rest ts → Divides n (u ++ rest) (us ++ ts)

/-! ## The scanner, lexeme by lexeme -/

/-- Tokens in front of what a scan comes to. -/
theorem map_append_append (ts us : List Token) (r : Except LexError (List Token)) :
    (r.map (us ++ ·)).map (ts ++ ·) = r.map ((ts ++ us) ++ ·) := by
  cases r <;> simp [Except.map]

theorem bne_quote_of_not_mem {p : Text} (hp : '"' ∉ p) : ∀ c ∈ p, (c != '"') = true := by
  intro c hc
  simp only [bne_iff_ne, ne_eq]
  rintro rfl
  exact hp hc

theorem scanFrom_phrase {n : Nat} {p rest : Text} (hp : '"' ∉ p) :
    scanFrom n ('"' :: (p ++ '"' :: rest)) =
      (scanFrom (n + p.length + 2) rest).map ([⟨.phrase, p, n⟩] ++ ·) := by
  have hpos := bne_quote_of_not_mem hp
  have htake : (p ++ '"' :: rest).takeWhile (· != '"') = p := by
    rw [List.takeWhile_append_of_pos hpos]; simp
  have hdrop : (p ++ '"' :: rest).dropWhile (· != '"') = '"' :: rest := by
    rw [List.dropWhile_append_of_pos hpos]; simp
  rw [scanFrom.eq_def]
  simp only [show Text.isBlank '"' = false by decide, show Text.isStray '"' = false by decide,
    show ('"' = '(') = False by decide, show ('"' = ')') = False by decide, if_false, if_true,
    Bool.false_eq_true, htake]
  split
  · rename_i h
    rw [hdrop] at h
    exact absurd h (by simp)
  · rename_i h
    rw [hdrop] at h
    obtain ⟨-, rfl⟩ := List.cons.inj h
    cases scanFrom (n + p.length + 2) rest <;> rfl

theorem scanFrom_word {n : Nat} {w rest : Text} (hne : w ≠ []) (hw : ∀ c ∈ w, Text.isWord c = true)
    (hr : Text.EndsWord rest) :
    scanFrom n (w ++ rest) =
      (ofWord n w rest).bind fun ts => (scanFrom (n + w.length) rest).map (ts ++ ·) := by
  obtain ⟨c, cs, rfl⟩ := List.exists_cons_of_ne_nil hne
  obtain ⟨hc, hcs⟩ := List.forall_mem_cons.1 hw
  obtain ⟨hblank, hdelimiter, hstray⟩ := (Text.isWord_iff c).1 hc
  have hopening : c ≠ '(' := by rintro rfl; exact absurd hdelimiter (by decide)
  have hclosing : c ≠ ')' := by rintro rfl; exact absurd hdelimiter (by decide)
  rw [List.cons_append, scanFrom.eq_def]
  simp only [hblank, hstray, hopening, hclosing, Text.ne_quote_of_word hc, if_false,
    Bool.false_eq_true, Text.takeWhile_word hcs hr, Text.dropWhile_word hcs hr]
  cases ofWord n (c :: cs) rest with
  | error e => rfl
  | ok ts => cases scanFrom (n + (c :: cs).length) rest <;> rfl

/-- The scanner goes through a text lexeme by lexeme. -/
theorem scanFrom_lexeme {n : Nat} {u rest : Text} {us : List Token} (h : Lexeme n rest u us) :
    scanFrom n (u ++ rest) = (scanFrom (n + u.length) rest).map (us ++ ·) := by
  cases h with
  | @blank c hc =>
    rw [List.singleton_append, scanFrom.eq_def]
    simp only [if_pos hc]
    cases scanFrom (n + 1) rest <;> rfl
  | opening =>
    rw [List.singleton_append, scanFrom.eq_def]
    simp only
    rw [if_neg (by decide), if_neg (by decide), if_pos trivial]
    cases scanFrom (n + 1) rest <;> rfl
  | closing =>
    rw [List.singleton_append, scanFrom.eq_def]
    simp only
    rw [if_neg (by decide), if_neg (by decide), if_neg (by decide), if_pos trivial]
    cases scanFrom (n + 1) rest <;> rfl
  | @phrase p hp =>
    have hlen : n + ('"' :: (p ++ ['"'])).length = n + p.length + 2 := by simp; omega
    rw [hlen, ← scanFrom_phrase hp]
    simp
  | word hne hw hr hts =>
    rw [scanFrom_word hne hw hr, hts]
    rfl

/-- What makes the scanner stop at the front of a text whose first character has offset `n`. -/
inductive Stops (n : Nat) : Text → LexError → Prop
  | stray {c : Char} {rest : Text} : Text.isStray c = true →
      Stops n (c :: rest) ⟨.strayCharacter c, n⟩
  | unterminated {rest : Text} : '"' ∉ rest → Stops n ('"' :: rest) ⟨.unterminatedPhrase, n⟩
  /-- A marker is the whole word, and no phrase follows. -/
  | unvalued {letters rest : Text} : Text.IsName letters →
      (∀ c ∈ letters ++ [':'], Text.isWord c = true) → Text.EndsWord rest →
      rest.head? ≠ some '"' →
      Stops n (letters ++ [':'] ++ rest) ⟨.missingValue (letters ++ [':']), n⟩

/-- The scanner reports what makes it stop. -/
theorem scanFrom_of_stops {n : Nat} {t : Text} {e : LexError} (h : Stops n t e) :
    scanFrom n t = .error e := by
  cases h with
  | @stray c rest hc =>
    have hblank : Text.isBlank c = false := by
      simp only [Text.isStray, Bool.and_eq_true, Bool.not_eq_true'] at hc
      exact hc.1
    rw [scanFrom.eq_def]
    simp only [hblank, hc, if_true, Bool.false_eq_true, if_false]
  | @unterminated rest hrest =>
    have hdrop : rest.dropWhile (· != '"') = [] := by
      have h : (rest ++ []).dropWhile (· != '"') = [].dropWhile (· != '"') :=
        List.dropWhile_append_of_pos (bne_quote_of_not_mem hrest)
      simpa using h
    rw [scanFrom.eq_def]
    simp only
    rw [if_neg (by decide), if_neg (by decide), if_neg (by decide), if_neg (by decide),
      if_pos trivial]
    split
    · rfl
    · rename_i h
      rw [hdrop] at h
      exact absurd h (by simp)
  | @unvalued letters rest hname hword hends hquote =>
    have herror : ofWord n (letters ++ [':']) rest =
        .error ⟨.missingValue (letters ++ [':']), n⟩ :=
      ofWord_eq_error_iff.2 ⟨⟨letters, hname, rfl⟩, hquote, rfl⟩
    rw [scanFrom_word (by simp) hword hends, herror]
    rfl

def BeginsOrStops (n : Nat) (t : Text) : Prop :=
  (∃ u rest us, t = u ++ rest ∧ u ≠ [] ∧ Lexeme n rest u us) ∨ ∃ e, Stops n t e

theorem beginsOrStops_quote (n : Nat) (cs : Text) : BeginsOrStops n ('"' :: cs) := by
  by_cases hmem : '"' ∈ cs
  · obtain ⟨p, rest, rfl, hp⟩ := List.eq_append_cons_of_mem hmem
    exact .inl ⟨'"' :: (p ++ ['"']), rest, _, by simp, by simp, .phrase hp⟩
  · exact .inr ⟨_, .unterminated hmem⟩

theorem beginsOrStops_word {n : Nat} {c : Char} {cs : Text} (hc : Text.isWord c = true) :
    BeginsOrStops n (c :: cs) := by
  have hw : ∀ d ∈ c :: cs.takeWhile Text.isWord, Text.isWord d = true := by
    intro d hd
    rcases List.mem_cons.1 hd with rfl | hd
    · exact hc
    · exact List.all_eq_true.1 List.all_takeWhile d hd
  have hr := Text.endsWord_dropWhile cs
  have hsplit : c :: cs = (c :: cs.takeWhile Text.isWord) ++ cs.dropWhile Text.isWord := by
    simp
  cases hts : ofWord n (c :: cs.takeWhile Text.isWord) (cs.dropWhile Text.isWord) with
  | ok ts => exact .inl ⟨_, _, ts, hsplit, by simp, .word (by simp) hw hr hts⟩
  | error e =>
    obtain ⟨⟨letters, hname, hletters⟩, hquote, -⟩ := ofWord_eq_error_iff.1 hts
    rw [hletters] at hw hsplit
    rw [hsplit]
    exact .inr ⟨_, .unvalued hname hw hr hquote⟩

/-- Where a text does not begin with a lexeme, the scanner stops. -/
theorem beginsOrStops_cons (n : Nat) (c : Char) (cs : Text) : BeginsOrStops n (c :: cs) := by
  by_cases hblank : Text.isBlank c = true
  · exact .inl ⟨[c], cs, [], rfl, by simp, .blank hblank⟩
  by_cases hstray : Text.isStray c = true
  · exact .inr ⟨_, .stray hstray⟩
  by_cases hopening : c = '('
  · subst hopening
    exact .inl ⟨['('], cs, _, rfl, by simp, .opening⟩
  by_cases hclosing : c = ')'
  · subst hclosing
    exact .inl ⟨[')'], cs, _, rfl, by simp, .closing⟩
  by_cases hquote : c = '"'
  · subst hquote
    exact beginsOrStops_quote n cs
  · refine beginsOrStops_word ?_
    simp only [Text.isWord_iff, Text.isDelimiter, Text.isParen]
    simp_all

/-- The scanner finds the tokens of the relation, and behind them the mark for the end. -/
theorem scanFrom_of_divides {n : Nat} {t : Text} {ts : List Token} (h : Divides n t ts) :
    scanFrom n t = .ok (ts ++ [⟨.done, [], n + t.length⟩]) := by
  induction h with
  | done =>
    unfold scanFrom
    rfl
  | @lexeme n u rest us ts hu _ ih =>
    rw [scanFrom_lexeme hu, ih]
    simp [Except.map, Nat.add_assoc]

/-- Induction along a text: it is empty, the scanner stops at its front, or a lexeme stands in front
of the rest. -/
theorem lexeme_induction {P : Nat → Text → Prop} (done : ∀ n, P n [])
    (stops : ∀ n t e, Stops n t e → P n t)
    (lexeme : ∀ n u rest us, Lexeme n rest u us → P (n + u.length) rest → P n (u ++ rest))
    (n : Nat) (t : Text) : P n t := by
  match t with
  | [] => exact done n
  | c :: cs =>
    rcases beginsOrStops_cons n c cs with ⟨u, rest, us, ht, hne, hu⟩ | ⟨e, he⟩
    · rw [ht]
      exact lexeme n u rest us hu
        (lexeme_induction done stops lexeme (n + u.length) rest)
    · exact stops n (c :: cs) e he
termination_by t.length
decreasing_by
  have := List.length_pos_iff.2 hne
  rw [ht, List.length_append]
  omega

theorem divides_of_scanFrom {n : Nat} {t : Text} {tokens : List Token}
    (h : scanFrom n t = .ok tokens) : ∃ ts, Divides n t ts := by
  induction n, t using lexeme_induction generalizing tokens with
  | done n => exact ⟨[], .done⟩
  | stops n t e he =>
    rw [scanFrom_of_stops he] at h
    exact absurd h (by simp)
  | lexeme n u rest us hu ih =>
    rw [scanFrom_lexeme hu] at h
    cases hrest : scanFrom (n + u.length) rest with
    | error e =>
      rw [hrest] at h
      exact absurd h (by simp [Except.map])
    | ok tail =>
      obtain ⟨ts, hts⟩ := ih hrest
      exact ⟨us ++ ts, .lexeme hu hts⟩

/-- The scanner and the relation say the same. -/
theorem scanFrom_eq_ok_iff {n : Nat} {t : Text} {tokens : List Token} :
    scanFrom n t = .ok tokens ↔
      ∃ ts, Divides n t ts ∧ tokens = ts ++ [⟨.done, [], n + t.length⟩] := by
  constructor
  · intro h
    obtain ⟨ts, hts⟩ := divides_of_scanFrom h
    rw [scanFrom_of_divides hts] at h
    exact ⟨ts, hts, (Except.ok.inj h).symm⟩
  · rintro ⟨ts, hts, rfl⟩
    exact scanFrom_of_divides hts

/-! ## Seams -/

/-- What a word stands for depends on what follows only where a value is missing. -/
theorem ofWord_append {n : Nat} {w rest v : Text} {ts : List Token}
    (h : ofWord n w rest = .ok ts) : ofWord n w (rest ++ v) = .ok ts := by
  cases rest with
  | cons c cs => exact h
  | nil =>
    unfold ofWord at h ⊢
    cases hfield : splitField? w with
    | none => simpa only [hfield] using h
    | some parts =>
      simp only [hfield] at h ⊢
      split at h
      · rename_i hvalue
        rw [if_pos hvalue]
        exact h
      · simp at h

/-- A lexeme stays one when more text follows, unless that goes on with its last word. -/
theorem Lexeme.append {n : Nat} {u rest v : Text} {us : List Token} (h : Lexeme n rest u us)
    (hv : Text.Apart (u ++ rest) v) : Lexeme n (rest ++ v) u us := by
  cases h with
  | blank hc => exact .blank hc
  | opening => exact .opening
  | closing => exact .closing
  | phrase hp => exact .phrase hp
  | word hne hw hr hts =>
    refine .word hne hw ?_ (ofWord_append hts)
    cases rest with
    | cons c cs => exact hr
    | nil =>
      rw [List.append_nil] at hv
      have hlast := List.getLast?_eq_some_getLast hne
      exact hv _ hlast (hw _ (List.getLast_mem hne))

/-- At a seam where no word is cut, the tokens in front do not depend on what follows. -/
theorem scanFrom_append {n : Nat} {u v : Text} {us : List Token} (h : Divides n u us)
    (hv : Text.Apart u v) :
    scanFrom n (u ++ v) = (scanFrom (n + u.length) v).map (us ++ ·) := by
  induction h with
  | @done n =>
    simp only [List.nil_append, List.length_nil, Nat.add_zero]
    cases scanFrom n v <;> rfl
  | @lexeme n u rest us ts hu _ ih =>
    rw [List.append_assoc, scanFrom_lexeme (hu.append hv), ih hv.of_append, map_append_append,
      List.length_append, Nat.add_assoc]

theorem Divides.append {n : Nat} {u v : Text} {us vs : List Token} (hu : Divides n u us)
    (hv : Divides (n + u.length) v vs) (h : Text.Apart u v) : Divides n (u ++ v) (us ++ vs) := by
  induction hu with
  | done => simpa using hv
  | @lexeme n u rest us ts hu _ ih =>
    rw [List.append_assoc, List.append_assoc]
    refine .lexeme (hu.append h) (ih ?_ h.of_append)
    rwa [Nat.add_assoc, ← List.length_append]

/-- At a seam where no word is cut, a longer text divides into the tokens on either side. -/
theorem Divides.split {n : Nat} {u v : Text} {us ts : List Token} (h : Divides n (u ++ v) ts)
    (hu : Divides n u us) (hseam : Text.Apart u v) :
    ∃ vs, ts = us ++ vs ∧ Divides (n + u.length) v vs := by
  have hscan := scanFrom_of_divides h
  rw [scanFrom_append hu hseam] at hscan
  cases hrest : scanFrom (n + u.length) v with
  | error e => simp [hrest, Except.map] at hscan
  | ok tokens =>
    obtain ⟨vs, hvs, rfl⟩ := scanFrom_eq_ok_iff.1 hrest
    simp only [hrest, Except.map, Except.ok.injEq, ← List.append_assoc] at hscan
    exact ⟨vs, (List.append_inj_left' hscan rfl).symm, hvs⟩

/-- No word runs across the end of a lexeme. -/
theorem Lexeme.apart {n : Nat} {u rest : Text} {us : List Token} (h : Lexeme n rest u us) :
    Text.Apart u rest := by
  intro c hc hword
  cases h with
  | blank hblank =>
    rw [List.getLast?_singleton, Option.mem_some_iff] at hc
    rw [hc, ((Text.isWord_iff c).1 hword).1] at hblank
    exact absurd hblank (by simp)
  | opening =>
    rw [List.getLast?_singleton, Option.mem_some_iff] at hc
    rw [← hc] at hword
    exact absurd hword (by decide)
  | closing =>
    rw [List.getLast?_singleton, Option.mem_some_iff] at hc
    rw [← hc] at hword
    exact absurd hword (by decide)
  | @phrase p hp =>
    rw [← List.cons_append, List.getLast?_concat, Option.mem_some_iff] at hc
    rw [← hc] at hword
    exact absurd hword (by decide)
  | word _ _ hr _ => exact hr

/-! ## Offsets -/

/-- What a word stands for does not depend on where it stands, offsets apart. -/
theorem ofWord_add (n k : Nat) (w rest : Text) :
    ofWord (n + k) w rest =
      ((ofWord n w rest).map (·.map (Token.shift k))).mapError (LexError.shift k) := by
  unfold ofWord
  cases splitField? w with
  | some parts =>
    obtain ⟨name, value⟩ := parts
    simp only
    split
    · have hvalue : n + k + name.length + 1 = n + name.length + 1 + k := by omega
      rw [hvalue]
      rfl
    · split
      · rfl
      · rfl
  | none => cases keyword? w <;> rfl

theorem Lexeme.shift {n : Nat} {u rest : Text} {us : List Token} (h : Lexeme n rest u us)
    (k : Nat) : Lexeme (n + k) rest u (us.map (Token.shift k)) := by
  cases h with
  | blank hc => exact .blank hc
  | opening => exact .opening
  | closing => exact .closing
  | phrase hp => exact .phrase hp
  | word hne hw hr hts =>
    refine .word hne hw hr ?_
    rw [ofWord_add, hts]
    rfl

/-- A text divides in the same way wherever it stands. -/
theorem Divides.shift {n : Nat} {u : Text} {us : List Token} (h : Divides n u us) (k : Nat) :
    Divides (n + k) u (us.map (Token.shift k)) := by
  induction h with
  | done => exact .done
  | @lexeme n u rest us ts hu _ ih =>
    rw [List.map_append]
    refine .lexeme (hu.shift k) ?_
    rwa [Nat.add_right_comm]

/-! ## What tokens can hold -/

/-- A word never stands for the mark of the end, and its values are made of its characters. -/
theorem of_mem_ofWord {n : Nat} {w rest : Text} {ts : List Token} (h : ofWord n w rest = .ok ts)
    {t : Token} (ht : t ∈ ts) :
    t.kind ≠ .done ∧ (t.kind.isValue = true → ∀ c ∈ t.value, c ∈ w) := by
  rcases ofWord_cases h with
    ⟨letters, value, -, -, rfl, rfl⟩ | ⟨letters, -, -, rfl, rfl⟩ | ⟨-, k, hk, rfl⟩
  · simp only [List.mem_cons, List.not_mem_nil, or_false] at ht
    rcases ht with rfl | rfl
    · exact ⟨by simp, by simp [Kind.isValue]⟩
    · refine ⟨by simp, fun _ c hc => ?_⟩
      exact List.mem_append_right letters (List.mem_cons_of_mem ':' hc)
  · obtain rfl := List.mem_singleton.1 ht
    exact ⟨by simp, by simp [Kind.isValue]⟩
  · obtain rfl := List.mem_singleton.1 ht
    refine ⟨?_, fun _ c hc => hc⟩
    rcases isKeyword_or_term hk with (rfl | rfl | rfl) | rfl <;> simp

theorem Lexeme.of_mem {n : Nat} {u rest : Text} {us : List Token} (h : Lexeme n rest u us)
    {t : Token} (ht : t ∈ us) : t.kind ≠ .done ∧ (t.kind.isValue = true → '"' ∉ t.value) := by
  cases h with
  | blank _ => simp at ht
  | opening => obtain rfl := List.mem_singleton.1 ht; simp [Kind.isValue]
  | closing => obtain rfl := List.mem_singleton.1 ht; simp [Kind.isValue]
  | phrase hp => obtain rfl := List.mem_singleton.1 ht; simp [hp]
  | word _ hw _ hts =>
    obtain ⟨hdone, hvalue⟩ := of_mem_ofWord hts ht
    refine ⟨hdone, fun hk hquote => ?_⟩
    exact Text.ne_quote_of_word (hw _ (hvalue hk _ hquote)) rfl

/-- The mark for the end is none of the tokens of a text, and no value holds a quote. -/
theorem Divides.of_mem {n : Nat} {u : Text} {us : List Token} (h : Divides n u us) {t : Token}
    (ht : t ∈ us) : t.kind ≠ .done ∧ (t.kind.isValue = true → '"' ∉ t.value) := by
  induction h with
  | done => simp at ht
  | lexeme hu _ ih =>
    rcases List.mem_append.1 ht with ht | ht
    · exact hu.of_mem ht
    · exact ih ht

/-! ## Stray characters -/

/-- Quotes come in pairs within a lexeme, and a stray character stands between two of them. -/
theorem Lexeme.quotes {n : Nat} {u rest : Text} {us : List Token} (h : Lexeme n rest u us) :
    u.count '"' % 2 = 0 ∧ ∀ c, Text.Outside c u → Text.isStray c = false := by
  cases h with
  | @blank d hd =>
    have hne : d ≠ '"' := by rintro rfl; exact absurd hd (by decide)
    refine ⟨by simp [hne], fun c hc => ?_⟩
    obtain rfl := List.mem_singleton.1 hc.mem
    exact Text.not_stray_of_blank hd
  | opening =>
    refine ⟨by decide, fun c hc => ?_⟩
    obtain rfl := List.mem_singleton.1 hc.mem
    decide
  | closing =>
    refine ⟨by decide, fun c hc => ?_⟩
    obtain rfl := List.mem_singleton.1 hc.mem
    decide
  | @phrase p hp =>
    have hcount : p.count '"' = 0 := List.count_eq_zero.2 hp
    refine ⟨by simp [hcount], fun c hc => ?_⟩
    obtain rfl := hc.eq_quote hp
    decide
  | @word w us hne hw hr hts =>
    have hcount : u.count '"' = 0 := by
      rw [List.count_eq_zero]
      intro hm
      exact Text.ne_quote_of_word (hw _ hm) rfl
    refine ⟨by rw [hcount], fun c hc => ?_⟩
    exact Text.not_stray_of_word (hw c hc.mem)

theorem Divides.count_quote {n : Nat} {u : Text} {us : List Token} (h : Divides n u us) :
    u.count '"' % 2 = 0 := by
  induction h with
  | done => rfl
  | lexeme hu _ ih =>
    have := hu.quotes.1
    rw [List.count_append]
    omega

/-- A text that can be divided has no stray character outside quotes. -/
theorem Divides.not_stray {n : Nat} {u : Text} {us : List Token} (h : Divides n u us) {c : Char}
    (hc : Text.Outside c u) : Text.isStray c = false := by
  obtain ⟨a, b, hu, heven⟩ := hc
  induction h generalizing a with
  | done => exact absurd hu (by simp)
  | @lexeme n l rest ls ts hl _ ih =>
    obtain ⟨hpairs, hstray⟩ := hl.quotes
    rcases Text.split_cases hu with ⟨l', hne, rfl, hb⟩ | ⟨a', rfl, hrest⟩
    · obtain ⟨d, l', rfl⟩ := List.exists_cons_of_ne_nil hne
      obtain ⟨rfl, -⟩ := List.cons.inj hb
      exact hstray c ⟨a, l', rfl, heven⟩
    · refine ih a' hrest ?_
      rw [List.count_append] at heven
      omega

/-! ## Beginnings -/

/-- A lexeme in front of a longer text is one in front of its beginning, unless a word stands at
the end of that. -/
theorem Lexeme.of_append {n : Nat} {u rest v : Text} {us : List Token}
    (h : Lexeme n (rest ++ v) u us) (hseal : Text.SealsWord (u ++ rest)) :
    Lexeme n rest u us := by
  cases h with
  | blank hc => exact .blank hc
  | opening => exact .opening
  | closing => exact .closing
  | phrase hp => exact .phrase hp
  | word hne hw hr hts =>
    cases rest with
    | cons c cs => exact .word hne hw hr hts
    | nil =>
      rw [List.append_nil] at hseal
      exact absurd (hseal.eq_nil hw) hne

/-- Where a lexeme is cut, there is a quote too many in front or a word goes on. -/
theorem Lexeme.eq_nil_of_cut {n : Nat} {u v rest : Text} {us : List Token}
    (h : Lexeme n rest (u ++ v) us) (hv : v ≠ []) (heven : u.count '"' % 2 = 0)
    (hseal : Text.SealsWord u) : u = [] := by
  have hsingle : ∀ c, u ++ v = [c] → u = [] := by
    intro c huv
    rcases List.append_eq_singleton_iff.1 huv with ⟨hu, -⟩ | ⟨-, hnil⟩
    · exact hu
    · exact absurd hnil hv
  generalize huv : u ++ v = l at h
  cases h with
  | blank _ => exact hsingle _ huv
  | opening => exact hsingle _ huv
  | closing => exact hsingle _ huv
  | @phrase p hp =>
    cases u with
    | nil => rfl
    | cons d u =>
      obtain ⟨rfl, htail⟩ := List.cons.inj huv
      have hquote : '"' ∉ u := by
        intro hm
        rcases List.append_eq_append_iff.1 htail with ⟨a, rfl, -⟩ | ⟨a, rfl, hlast⟩
        · exact hp (List.mem_append_left _ hm)
        · rcases List.append_eq_singleton_iff.1 hlast.symm with ⟨rfl, -⟩ | ⟨-, hnil⟩
          · rw [List.append_nil] at hm
            exact hp hm
          · exact hv hnil
      simp [List.count_eq_zero.2 hquote] at heven
  | word hne hw _ _ =>
    refine hseal.eq_nil ?_
    intro c hc
    exact hw c (huv ▸ List.mem_append_left v hc)

/-- A beginning of a text that can be divided can be divided itself, where neither a phrase nor a
word is cut. -/
theorem Divides.of_append {n : Nat} {u v : Text} {ts : List Token} (h : Divides n (u ++ v) ts)
    (heven : u.count '"' % 2 = 0) (hseal : Text.SealsWord u) : ∃ us, Divides n u us := by
  -- By induction on the division: the beginning ends within the first lexeme, or goes on behind it.
  generalize huv : u ++ v = t at h
  induction h generalizing u with
  | done =>
    obtain ⟨rfl, -⟩ := List.append_eq_nil_iff.1 huv
    exact ⟨[], .done⟩
  | @lexeme n l rest ls ts hl _ ih =>
    rcases Text.split_cases huv.symm with ⟨a, ha, rfl, -⟩ | ⟨u', rfl, rfl⟩
    · obtain rfl := hl.eq_nil_of_cut ha heven hseal
      exact ⟨[], .done⟩
    · have heven' : u'.count '"' % 2 = 0 := by
        have := hl.quotes.1
        rw [List.count_append] at heven
        omega
      obtain ⟨us, hus⟩ := ih heven' hseal.of_append rfl
      exact ⟨ls ++ us, .lexeme (hl.of_append hseal) hus⟩

end Token

end NoteQuery

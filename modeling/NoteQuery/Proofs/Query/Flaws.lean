import NoteQuery.Proofs.Query.Lexemes

/-!
# What is wrong with a text

A text that has no tokens has a flaw: a quote too many, a stray character outside quotes, or a
marker outside quotes that is a whole word with no phrase behind it (`Token.Flaw`). No lexeme has
one, so that the flaws of a text are those of what stands behind its first lexeme
(`Token.flaw_append_iff`), and the scanner, which stops at the first flaw that it comes to, reports
the one with the least offset (`Token.scan_eq_error_iff`).
-/

set_option autoImplicit false

namespace NoteQuery.Token

/-! ## Flaws -/

/-- A flaw of a text whose first character has offset `n`: the offset and the message about it.
What stands outside quotes has an even number of quotes in front. -/
inductive Flaw (n : Nat) (t : Text) : Nat → Text → Prop
  /-- The last one of an odd number of quotes is not closed. -/
  | unterminated {before after : Text} : t = before ++ '"' :: after → '"' ∉ after →
      t.count '"' % 2 = 1 → Flaw n t (n + before.length) "Unterminated phrase".toList
  /-- A stray character stands outside quotes. -/
  | stray {before after : Text} {c : Char} : t = before ++ c :: after →
      before.count '"' % 2 = 0 → Text.isStray c = true →
      Flaw n t (n + before.length) ("Invalid character ".toList ++ Text.shown [c])
  /-- A whole word outside quotes is a name and a colon, and no quote follows. -/
  | unvalued {before letters after : Text} : t = before ++ (letters ++ [':'] ++ after) →
      before.count '"' % 2 = 0 → Text.WholeWord before (letters ++ [':']) after →
      Text.IsName letters → after.head? ≠ some '"' →
      Flaw n t (n + before.length)
        ("Missing value after '".toList ++ (letters ++ [':']) ++ "'".toList)

variable {n p : Nat} {t u rest m m' : Text} {us ts : List Token} {e : LexError}

theorem Flaw.le (h : Flaw n t p m) : n ≤ p := by
  cases h <;> exact Nat.le_add_right _ _

theorem not_flaw_nil : ¬ Flaw n [] p m := by
  intro h
  cases h with
  | unterminated ht _ _ => simp at ht
  | stray ht _ _ => simp at ht
  | unvalued ht _ _ _ _ => simp at ht

/-- The scanner stops only at a flaw. -/
theorem Stops.flaw (h : Stops n t e) : e.position = n ∧ Flaw n t n e.cause.message := by
  cases h with
  | stray hc => exact ⟨rfl, @Flaw.stray n _ [] _ _ rfl rfl hc⟩
  | @unterminated rest hrest =>
    refine ⟨rfl, @Flaw.unterminated n _ [] rest rfl hrest ?_⟩
    simp [List.count_eq_zero.2 hrest]
  | @unvalued letters rest hname hword hends hquote =>
    have hwhole : Text.WholeWord [] (letters ++ [':']) rest :=
      ⟨by simp, hword, by simp [Text.SealsWord], hends⟩
    exact ⟨rfl, @Flaw.unvalued n _ [] letters rest rfl rfl hwhole hname hquote⟩

/-- The scanner would stop where a flaw is. -/
theorem Flaw.stops (h : Flaw n t p m) :
    ∃ before tail e, t = before ++ tail ∧ p = n + before.length ∧ Stops p tail e ∧
      e.cause.message = m := by
  cases h with
  | unterminated ht hafter _ => exact ⟨_, _, _, ht, rfl, .unterminated hafter, rfl⟩
  | stray ht _ hc => exact ⟨_, _, _, ht, rfl, .stray hc, rfl⟩
  | unvalued ht _ hw hname hquote =>
    exact ⟨_, _, _, ht, rfl, .unvalued hname hw.word hw.back hquote, rfl⟩

/-- There is one message about an offset. -/
theorem Flaw.message_unique (h : Flaw n t p m) (h' : Flaw n t p m') : m = m' := by
  obtain ⟨before, tail, e, ht, hp, hstops, rfl⟩ := h.stops
  obtain ⟨before', tail', e', ht', hp', hstops', rfl⟩ := h'.stops
  have hlength : before.length = before'.length := by omega
  obtain ⟨rfl, rfl⟩ := List.append_inj (ht.symm.trans ht') hlength
  have herror := scanFrom_of_stops hstops
  rw [scanFrom_of_stops hstops'] at herror
  rw [Except.error.inj herror]

/-! ## Lexemes have no flaw -/

/-- A marker without a value does not begin within a lexeme. -/
theorem Lexeme.not_unvalued {before letters after a : Text} (h : Lexeme n rest u us)
    (hu : u = before ++ a) (ha : a ≠ []) (hsplit : letters ++ [':'] ++ after = a ++ rest)
    (heven : before.count '"' % 2 = 0) (hw : Text.WholeWord before (letters ++ [':']) after)
    (hname : Text.IsName letters) (hquote : after.head? ≠ some '"') : False := by
  -- the first letter of the marker stands in the lexeme, outside quotes
  obtain ⟨d, ds, rfl⟩ := List.exists_cons_of_ne_nil ha
  obtain ⟨l, ls, hletters⟩ := List.exists_cons_of_ne_nil hname.1
  have hd : Text.isWord d = true := by
    rw [hletters, List.cons_append, List.cons_append, List.cons_append] at hsplit
    obtain ⟨rfl, -⟩ := List.cons.inj hsplit
    exact hw.word l (by simp [hletters])
  have hmem : d ∈ u := by
    rw [hu]
    exact List.mem_append_right before List.mem_cons_self
  cases h with
  | blank hc =>
    obtain rfl := List.mem_singleton.1 hmem
    rw [((Text.isWord_iff d).1 hd).1] at hc
    exact absurd hc (by simp)
  | opening =>
    obtain rfl := List.mem_singleton.1 hmem
    exact absurd hd (by decide)
  | closing =>
    obtain rfl := List.mem_singleton.1 hmem
    exact absurd hd (by decide)
  | phrase hp =>
    have hout : Text.Outside d _ := ⟨before, ds, hu, heven⟩
    obtain rfl := hout.eq_quote hp
    exact absurd hd (by decide)
  | word hne hword hends hts =>
    have hbefore : before = [] := by
      refine hw.front.eq_nil ?_
      intro c hc
      exact hword c (hu ▸ List.mem_append_left _ hc)
    subst hbefore
    rw [List.nil_append] at hu
    rw [← hu] at hsplit
    -- both words end where the run of word characters ends
    have hmarker := Text.takeWhile_word hw.word hw.back
    rw [hsplit, Text.takeWhile_word hword hends] at hmarker
    rw [hmarker] at hsplit hts
    obtain rfl := List.append_cancel_left hsplit
    rw [ofWord_eq_error_iff.2 ⟨⟨letters, hname, rfl⟩, hquote, rfl⟩] at hts
    exact absurd hts (by simp)

theorem Flaw.append_front (h : Flaw (n + u.length) rest p m) (hu : Lexeme n rest u us) :
    Flaw n (u ++ rest) p m := by
  have hpairs := hu.quotes.1
  have hlength : ∀ before : Text, n + u.length + before.length = n + (u ++ before).length := by
    intro before
    rw [List.length_append, Nat.add_assoc]
  have heven : ∀ before : Text, before.count '"' % 2 = 0 → (u ++ before).count '"' % 2 = 0 := by
    intro before h
    rw [List.count_append]
    omega
  cases h with
  | unterminated ht hafter hodd =>
    rw [hlength]
    refine .unterminated (by rw [ht, List.append_assoc]) hafter ?_
    rw [List.count_append]
    omega
  | stray ht hbefore hc =>
    rw [hlength]
    exact .stray (by rw [ht, List.append_assoc]) (heven _ hbefore) hc
  | unvalued ht hbefore hw hname hquote =>
    rw [hlength]
    have hapart := hu.apart
    rw [ht] at hapart
    exact .unvalued (by rw [ht]; simp) (heven _ hbefore) (hw.append_front hapart) hname hquote

theorem Flaw.of_append_front (h : Flaw n (u ++ rest) p m) (hu : Lexeme n rest u us) :
    Flaw (n + u.length) rest p m := by
  obtain ⟨hpairs, hstray⟩ := hu.quotes
  have hlength : ∀ before : Text, n + (u ++ before).length = n + u.length + before.length := by
    intro before
    rw [List.length_append, Nat.add_assoc]
  have heven : ∀ before : Text, (u ++ before).count '"' % 2 = 0 → before.count '"' % 2 = 0 := by
    intro before h
    rw [List.count_append] at h
    omega
  -- the flaw begins within the lexeme, or lies behind it
  cases h with
  | @unterminated before after ht hafter hodd =>
    rw [List.count_append] at hodd
    rcases Text.split_cases ht with ⟨a, ha, -, htail⟩ | ⟨a, rfl, hrest⟩
    · -- no quote stands behind the lexeme, and those in it come in pairs
      obtain ⟨d, ds, rfl⟩ := List.exists_cons_of_ne_nil ha
      obtain ⟨-, rfl⟩ := List.cons.inj htail
      have hnone : rest.count '"' = 0 :=
        List.count_eq_zero.2 fun hmem => hafter (List.mem_append_right ds hmem)
      omega
    · rw [hlength]
      exact .unterminated hrest hafter (by omega)
  | @stray before after c ht hbefore hc =>
    rcases Text.split_cases ht with ⟨a, ha, hsplit, htail⟩ | ⟨a, rfl, hrest⟩
    · obtain ⟨d, ds, rfl⟩ := List.exists_cons_of_ne_nil ha
      obtain ⟨rfl, -⟩ := List.cons.inj htail
      have hno := hstray c ⟨before, ds, hsplit, hbefore⟩
      rw [hc] at hno
      exact absurd hno (by simp)
    · rw [hlength]
      exact .stray hrest (heven a hbefore) hc
  | @unvalued before letters after ht hbefore hw hname hquote =>
    rcases Text.split_cases ht with ⟨a, ha, hsplit, htail⟩ | ⟨a, rfl, hrest⟩
    · exact (hu.not_unvalued hsplit ha htail hbefore hw hname hquote).elim
    · rw [hlength]
      exact .unvalued hrest (heven a hbefore) hw.of_append_front hname hquote

/-- The flaws of a text are those of what stands behind its first lexeme. -/
theorem flaw_append_iff (hu : Lexeme n rest u us) :
    Flaw n (u ++ rest) p m ↔ Flaw (n + u.length) rest p m :=
  ⟨fun h => h.of_append_front hu, fun h => h.append_front hu⟩

/-! ## The first flaw -/

theorem Divides.not_flaw (h : Divides n t ts) : ¬ Flaw n t p m := by
  induction h with
  | done => exact not_flaw_nil
  | lexeme hu _ ih =>
    rw [flaw_append_iff hu]
    exact ih

/-- What the scanner reports is a flaw, and none has a lesser offset. -/
theorem flaw_of_scanFrom (h : scanFrom n t = .error e) :
    Flaw n t e.position e.cause.message ∧ ∀ p m, Flaw n t p m → e.position ≤ p := by
  induction n, t using lexeme_induction with
  | done n =>
    rw [scanFrom_of_divides .done] at h
    exact absurd h (by simp)
  | stops n t e' he =>
    rw [scanFrom_of_stops he] at h
    obtain rfl := Except.error.inj h
    obtain ⟨hposition, hflaw⟩ := he.flaw
    rw [hposition]
    exact ⟨hflaw, fun p m hp => hp.le⟩
  | lexeme n u rest us hu ih =>
    simp only [flaw_append_iff hu]
    refine ih ?_
    rw [scanFrom_lexeme hu] at h
    cases hrest : scanFrom (n + u.length) rest with
    | ok tail =>
      rw [hrest] at h
      exact absurd h (by simp [Except.map])
    | error e' =>
      rw [hrest] at h
      exact congrArg Except.error (Except.error.inj h)

/-- The scanner reports exactly the first flaw. -/
theorem exists_scanFrom_eq_error_iff :
    (∃ e, scanFrom n t = .error e ∧ e.position = p ∧ e.cause.message = m) ↔
      Flaw n t p m ∧ ∀ p' m', Flaw n t p' m' → p ≤ p' := by
  constructor
  · intro h
    obtain ⟨e, he, rfl, rfl⟩ := h
    exact flaw_of_scanFrom he
  · intro h
    obtain ⟨hflaw, hfirst⟩ := h
    cases hscan : scanFrom n t with
    | ok tokens =>
      obtain ⟨ts, hts⟩ := divides_of_scanFrom hscan
      exact absurd hflaw hts.not_flaw
    | error e =>
      obtain ⟨hreported, hleast⟩ := flaw_of_scanFrom hscan
      have hposition : e.position = p := Nat.le_antisymm (hleast p m hflaw) (hfirst _ _ hreported)
      rw [hposition] at hreported
      exact ⟨e, rfl, hposition, hreported.message_unique hflaw⟩

theorem exists_last_quote (h : t.count '"' % 2 = 1) :
    ∃ before after, t = before ++ '"' :: after ∧ '"' ∉ after := by
  have hmem : '"' ∈ t.reverse := by
    rw [List.mem_reverse]
    refine List.count_pos_iff.1 ?_
    omega
  obtain ⟨after, before, hsplit, hnot⟩ := List.eq_append_cons_of_mem hmem
  refine ⟨before.reverse, after.reverse, ?_, by simpa using hnot⟩
  rw [← List.reverse_reverse t, hsplit]
  simp

/-- A query is not divided into tokens exactly if it has an odd number of quotes, a stray character
outside quotes, or a whole word outside quotes that is a field marker with neither a value nor a
quote behind it. What the scanner then reports is the flaw with the least offset: its offset is
that of the last quote, of the stray character or of the marker, and the message is of its kind. -/
theorem scan_eq_error_iff (q : Text) :
    ((∃ e, scan q = .error e) ↔
      q.count '"' % 2 = 1 ∨
      (∃ before c after, q = before ++ c :: after ∧ before.count '"' % 2 = 0 ∧
        Text.isStray c = true) ∨
      ∃ before letters after, q = before ++ (letters ++ [':'] ++ after) ∧
        before.count '"' % 2 = 0 ∧ Text.WholeWord before (letters ++ [':']) after ∧
        Text.IsName letters ∧ after.head? ≠ some '"') ∧
    ∀ p m, (∃ e, scan q = .error e ∧ e.position = p ∧ e.cause.message = m) ↔
      Flaw 0 q p m ∧ ∀ p' m', Flaw 0 q p' m' → p ≤ p' := by
  refine ⟨⟨?_, ?_⟩, fun p m => exists_scanFrom_eq_error_iff⟩
  · intro h
    obtain ⟨e, he⟩ := h
    have hflaw := (flaw_of_scanFrom he).1
    generalize e.position = p, e.cause.message = m at hflaw
    cases hflaw with
    | unterminated _ _ hodd => exact .inl hodd
    | stray ht hbefore hc => exact .inr (.inl ⟨_, _, _, ht, hbefore, hc⟩)
    | unvalued ht hbefore hw hname hquote =>
      exact .inr (.inr ⟨_, _, _, ht, hbefore, hw, hname, hquote⟩)
  · intro h
    have hflaw : ∃ p m, Flaw 0 q p m := by
      rcases h with hodd | ⟨before, c, after, ht, hbefore, hc⟩ |
        ⟨before, letters, after, ht, hbefore, hw, hname, hquote⟩
      · obtain ⟨before, after, ht, hafter⟩ := exists_last_quote hodd
        exact ⟨_, _, .unterminated ht hafter hodd⟩
      · exact ⟨_, _, .stray ht hbefore hc⟩
      · exact ⟨_, _, .unvalued ht hbefore hw hname hquote⟩
    obtain ⟨p, m, hflaw⟩ := hflaw
    cases hscan : scan q with
    | ok tokens =>
      obtain ⟨ts, hts⟩ := divides_of_scanFrom hscan
      exact absurd hflaw hts.not_flaw
    | error e => exact ⟨e, rfl⟩

end NoteQuery.Token

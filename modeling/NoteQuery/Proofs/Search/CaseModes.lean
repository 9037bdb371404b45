import NoteQuery.Proofs.Search.Answers
import NoteQuery.Proofs.Search.Occurrences

/-!
# Searching with and without regard to case

What matches exactly matches in every mode, character by character (`CaseMode.related_of_exact`), and
so does every leaf. What that means for a tree depends on how many negations its leaves stand below:
with an even number everywhere, what a tree finds when case counts it finds too when case does not,
and with an odd number everywhere the other way round (`Evaluation.notes_of_parity`).
-/

set_option autoImplicit false

namespace NoteQuery

variable {mode : CaseMode} {field : Field} {value : Text} {note : Note}

/-! ## Leaves -/

/-- Every character matches itself. -/
theorem CaseMode.related_of_exact {a b : Char} (h : exact.related a b = true) :
    mode.related a b = true := by
  obtain rfl : a = b := eq_of_beq h
  exact mode.related_self a

namespace Text

theorem beginsWith_of_exact {needle text : Text} (h : beginsWith .exact needle text = true) :
    beginsWith mode needle text = true := by
  have hexact := beginsWith_iff.1 h
  exact beginsWith_iff.2 (hexact.imp fun _ _ => CaseMode.related_of_exact)

theorem occursIn_of_exact {needle text : Text} (h : occursIn .exact needle text = true) :
    occursIn mode needle text = true := by
  obtain ⟨n, hbegins⟩ := occursIn_iff.1 h
  exact occursIn_iff.2 ⟨n, beginsWith_of_exact hbegins⟩

end Text

namespace Note

theorem partContains_of_exact {part : Part} (h : note.partContains .exact value part = true) :
    note.partContains mode value part = true := by
  cases part with
  | tag =>
    obtain ⟨tag, htag, hoccurs⟩ := List.any_eq_true.1 h
    exact List.any_eq_true.2 ⟨tag, htag, Text.occursIn_of_exact hoccurs⟩
  | title | body => exact Text.occursIn_of_exact h

theorem matchesLeaf_of_exact (h : note.matchesLeaf .exact field value = true) :
    note.matchesLeaf mode field value = true := by
  obtain ⟨part, hpart, hcontains⟩ := List.any_eq_true.1 h
  exact List.any_eq_true.2 ⟨part, hpart, partContains_of_exact hcontains⟩

end Note

namespace Tree

theorem leafHolds_of_exact {corpus : List Note} {id : Text}
    (h : leafHolds corpus .exact id field value = true) :
    leafHolds corpus mode id field value = true := by
  obtain ⟨note, hnote, hmatches⟩ := List.any_eq_true.1 h
  rw [Bool.and_eq_true] at hmatches
  refine List.any_eq_true.2 ⟨note, hnote, ?_⟩
  rw [Bool.and_eq_true]
  exact ⟨hmatches.1, Note.matchesLeaf_of_exact hmatches.2⟩

/-! ## Parity -/

/-- A tree follows its leaves where all of them stand below an even number of negations, and goes
against them where all of them stand below an odd number. -/
theorem holds_of_parity {even : Bool} {p q : Field → Text → Bool} {t : Tree}
    (h : t.HasParity even) (heven : even = true → ∀ f v, p f v = true → q f v = true)
    (hodd : even = false → ∀ f v, q f v = true → p f v = true) (hp : t.holds p = true) :
    t.holds q = true := by
  induction t generalizing even p q with
  | leaf f v => exact heven h f v hp
  | all cs ih =>
    have hcs := haveParity_iff.1 h
    exact allHold_iff.2 fun c hc => ih c hc (hcs c hc) heven hodd (allHold_iff.1 hp c hc)
  | any cs ih =>
    have hcs := haveParity_iff.1 h
    obtain ⟨c, hc, hholds⟩ := anyHolds_iff.1 hp
    exact anyHolds_iff.2 ⟨c, hc, ih c hc (hcs c hc) heven hodd hholds⟩
  | negation c ih =>
    simp only [holds, Bool.not_eq_true', ← Bool.not_eq_true] at hp ⊢
    intro hq
    -- One negation fewer turns the parity round, and with it what follows from what.
    refine hp (ih h (fun hnot => hodd ?_) (fun hnot => heven ?_) hq)
    · simpa using hnot
    · simpa using hnot
  | group c ih => exact ih h heven hodd hp
  | absent | unknown kind => exact absurd hp Bool.false_ne_true

variable {corpus : List Note} {t : Tree}

/-- With an even number of negations above every leaf, a tree selects at least what it selects when
case counts. -/
theorem selects_of_even (h : t.HasParity true) :
    (t.selects corpus .exact).Sublist (t.selects corpus mode) := by
  refine List.monotone_filter_right (Note.firsts corpus) fun note hholds => ?_
  exact holds_of_parity h (fun _ _ _ => leafHolds_of_exact) (fun hodd => absurd hodd (by decide))
    hholds

/-- With an odd number of negations above every leaf, a tree selects at most what it selects when
case counts. -/
theorem selects_of_odd (h : t.HasParity false) :
    (t.selects corpus mode).Sublist (t.selects corpus .exact) := by
  refine List.monotone_filter_right (Note.firsts corpus) fun note hholds => ?_
  exact holds_of_parity h (fun heven => absurd heven (by decide)) (fun _ _ _ => leafHolds_of_exact)
    hholds

end Tree

namespace Evaluation

/-- An evaluation that asks only for what must be there finds more notes when case does not count,
and one that asks only for what must not be there finds fewer; either way they come in one order.
Every conjunction has a child, as all have that can be built. -/
theorem notes_of_parity (corpus : List Note) {t : Tree} (hf : t.Filled)
    (hh : t.height ≤ Tree.heightLimit) :
    ∃ exact ignored, (evaluate ⟨corpus, .exact, none⟩ (some t)).notes? = some exact ∧
      (evaluate ⟨corpus, .ignored, none⟩ (some t)).notes? = some ignored ∧
      (t.HasParity true → exact.Sublist ignored) ∧
      (t.HasParity false → ignored.Sublist exact) := by
  have hnotes : ∀ mode, (evaluate ⟨corpus, mode, none⟩ (some t)).notes? =
      some (t.selects corpus mode) := by
    intro mode
    rcases evaluate_of_returns (returns_ids hf hh) none with hnotes | ⟨hne, -⟩
    · exact hnotes
    · exact absurd rfl hne
  exact ⟨_, _, hnotes .exact, hnotes .ignored, Tree.selects_of_even, Tree.selects_of_odd⟩

/-- Two notes share an id, and which of them a leaf matches depends on the mode. -/
theorem notes_of_parity_shared_id :
    let title : Note := ⟨['1'], "Plan".toList, [], [], none, none⟩
    let body : Note := ⟨['1'], [], "PLAN".toList, [], none, none⟩
    let tagged : Note := ⟨['2'], [], [], ["plan".toList], none, none⟩
    let corpus := [title, body, tagged]
    let wanted : Tree := .any [.negation (.negation (.leaf .title "plan".toList)),
      .leaf .tag "plan".toList]
    let unwanted : Tree := .negation (.group (.all [wanted, .leaf .anywhere "pl".toList]))
    (wanted.Filled ∧ wanted.height ≤ Tree.heightLimit ∧ wanted.HasParity true) ∧
      (unwanted.Filled ∧ unwanted.height ≤ Tree.heightLimit ∧ unwanted.HasParity false) ∧
      (evaluate ⟨corpus, .exact, none⟩ (some wanted)).notes? = some [tagged] ∧
      (∃ more, (evaluate ⟨corpus, .ignored, none⟩ (some wanted)).notes? = some more ∧
        [tagged].Sublist more) ∧
      (evaluate ⟨corpus, .exact, none⟩ (some unwanted)).notes? = some [title] ∧
      ∃ fewer, (evaluate ⟨corpus, .ignored, none⟩ (some unwanted)).notes? = some fewer ∧
        fewer.Sublist [title] := by
  intro title body tagged corpus wanted unwanted
  have hwanted : wanted.Filled ∧ wanted.height ≤ Tree.heightLimit ∧ wanted.HasParity true := by
    simp [wanted, Tree.Filled, Tree.FilledList, Tree.HasParity, Tree.HaveParity, Tree.height,
      Tree.heightList, Tree.heightLimit]
  have hunwanted :
      unwanted.Filled ∧ unwanted.height ≤ Tree.heightLimit ∧ unwanted.HasParity false := by
    simp [unwanted, wanted, Tree.Filled, Tree.FilledList, Tree.HasParity, Tree.HaveParity,
      Tree.height, Tree.heightList, Tree.heightLimit]
  obtain ⟨exact, more, hexact, hmore, hsublist, -⟩ :=
    notes_of_parity corpus hwanted.1 hwanted.2.1
  obtain ⟨exact', fewer, hexact', hfewer, -, hsublist'⟩ :=
    notes_of_parity corpus hunwanted.1 hunwanted.2.1
  have htagged : (evaluate ⟨corpus, .exact, none⟩ (some wanted)).notes? = some [tagged] := by
    decide +kernel
  have htitle : (evaluate ⟨corpus, .exact, none⟩ (some unwanted)).notes? = some [title] := by
    decide +kernel
  obtain rfl : [tagged] = exact := Option.some.inj (htagged.symm.trans hexact)
  obtain rfl : [title] = exact' := Option.some.inj (htitle.symm.trans hexact')
  exact ⟨hwanted, hunwanted, htagged, ⟨more, hmore, hsublist hwanted.2.2⟩, htitle, fewer, hfewer,
    hsublist' hunwanted.2.2⟩

end Evaluation

end NoteQuery

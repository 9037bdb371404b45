import NoteQuery.Proofs.Query.Printing
import NoteQuery.Proofs.Query.Recognition
import NoteQuery.Query.Parsed

/-!
# Reading back what was written

`Parsed.ofText_eq_query_iff` puts the lexer and the parser together: a text is a query exactly if it
divides into tokens from which the grammar derives a tree. With it, a tree comes back from its
canonical text exactly if it is writable (`Tree.reads_back_iff`), and the tree of a query exactly if
no value has stray characters that nothing else forces into quotes
(`Parsed.canonical_reads_back_iff`).
-/

set_option autoImplicit false

namespace NoteQuery

open Token (Divides)

/-! ## Texts that are queries -/

namespace Token

theorem divides_of_allBlank {u : Text} (h : Text.allBlank u = true) (n : Nat) :
    Divides n u [] := by
  induction u generalizing n with
  | nil => exact .done
  | cons c cs ih =>
    simp only [Text.allBlank, List.all_cons, Bool.and_eq_true] at h
    exact .blank h.1 (ih h.2 (n + 1))

/-- A text has one division. -/
theorem Divides.unique {n : Nat} {u : Text} {ts us : List Token} (ht : Divides n u ts)
    (hu : Divides n u us) : ts = us := by
  have hscan := scanFrom_of_divides ht
  rw [scanFrom_of_divides hu] at hscan
  exact (List.append_cancel_right (Except.ok.inj hscan)).symm

end Token

namespace Parsed

theorem ofText_eq_query_iff {u : Text} {t : Tree} :
    ofText u = .query t ↔ ∃ ts, Divides 0 u ts ∧ Grammar.Derives ts t := by
  constructor
  · intro h
    unfold ofText at h
    split at h
    · cases h
    · split at h
      · cases h
      · rename_i tokens hscan
        obtain ⟨ts, hts, rfl⟩ := Token.scanFrom_eq_ok_iff.1 hscan
        refine ⟨ts, hts, ?_⟩
        split at h
        · cases h
        · cases h
        · rename_i root hroot
          obtain rfl := Parsed.query.inj h
          exact (Parser.run_eq_some_iff (fun t ht => (hts.of_mem ht).1) rfl).1 hroot
  · rintro ⟨ts, hts, hder⟩
    have hblank : Text.allBlank u ≠ true := fun hblank =>
      hder.ne_nil (hts.unique (Token.divides_of_allBlank hblank 0))
    have hscan : Token.scan u = .ok (ts ++ [⟨.done, [], 0 + u.length⟩]) :=
      Token.scanFrom_of_divides hts
    have hroot : Tree.ofTokens? (ts ++ [⟨.done, [], 0 + u.length⟩]) = .ok (some t) :=
      (Parser.run_eq_some_iff (fun t ht => (hts.of_mem ht).1) rfl).2 hder
    simp only [ofText, if_neg hblank, hscan, hroot]

end Parsed

theorem Parsed.eq_query_of_root? {p : Parsed} {t : Tree} (h : p.root? = some t) :
    p = .query t := by
  cases p with
  | query root => exact congrArg Parsed.query (Option.some.inj h)
  | empty => cases h
  | rejected e => cases h

/-- What was read from a text is shaped, and no value is empty or holds a quote. -/
theorem Parsed.shaped_of_ofText {u : Text} {t : Tree} (h : ofText u = .query t) :
    t.Shaped Grammar.maxNesting fun v => v ≠ [] ∧ '"' ∉ v := by
  obtain ⟨ts, hts, hder⟩ := ofText_eq_query_iff.1 h
  refine hder.shaped.imp fun v hv => ?_
  obtain ⟨hne, token, htoken, hvalue, rfl⟩ := hv
  exact ⟨hne, (hts.of_mem htoken).2 hvalue⟩

/-! ## Writing and reading -/

namespace Tree

theorem eq_render_of_render? {t : Tree} {text : Text} (h : t.render? = .ok text) :
    text = t.render := by
  unfold render? walk? at h
  split at h
  · cases h
  · exact (Except.ok.inj h).symm

/-- A layered tree without too many groups and negations is never too tall to be written. -/
theorem render?_eq_ok {t : Tree} (hk : t.Known) (hl : t.Layered)
    (hn : t.nesting ≤ Grammar.maxNesting) : t.render? = .ok t.render := by
  have hheight : t.height ≤ heightLimit := by
    have := hl.height_le.1
    simp only [Grammar.maxNesting] at hn
    simp only [heightLimit]
    omega
  simp only [render?, walk?, obstacle?_eq_none hk hheight]

theorem Writable.ofText_render {t : Tree} (hp : t.Proper) (hw : t.Writable) :
    Parsed.ofText t.render = .query t := by
  have hshaped : t.Shaped Grammar.maxNesting WritableValue := ⟨hp, hw.1, hw.2.1, hw.2.2⟩
  obtain ⟨ts, hts, hphrase⟩ := divides_render hshaped 0
  obtain ⟨alternatives, hdis, htree⟩ := hphrase.disjunction hp
  exact Parsed.ofText_eq_query_iff.2 ⟨ts, hts, alternatives, hdis, htree⟩

theorem writable_of_ofText_render {t : Tree} (h : Parsed.ofText t.render = .query t) :
    t.Writable := by
  have hshaped := Parsed.shaped_of_ofText h
  obtain ⟨ts, hts, -⟩ := Parsed.ofText_eq_query_iff.1 h
  exact ⟨hshaped.layered, hshaped.nesting_le, writable_of_divides hts hshaped.values⟩

/-- A tree whose connectives have children enough comes back from its canonical text exactly if it
is writable. -/
theorem reads_back_iff {t : Tree} (ht : t.Proper) :
    (∃ text, t.render? = .ok text ∧ Parsed.ofText text = .query t) ↔ t.Writable := by
  constructor
  · rintro ⟨text, htext, hread⟩
    rw [eq_render_of_render? htext] at hread
    exact writable_of_ofText_render hread
  · intro hw
    exact ⟨t.render, render?_eq_ok ht.known hw.1 hw.2.1, hw.ofText_render ht⟩

/-- A negated group of a field with a word and a phrase comes back. -/
theorem negated_group_reads_back :
    ∃ text,
      (negation (.group (.all [.leaf .tag ['a'], .leaf .anywhere "or".toList]))).render? =
        .ok text ∧
      Parsed.ofText text =
        .query (.negation (.group (.all [.leaf .tag ['a'], .leaf .anywhere "or".toList]))) := by
  refine (reads_back_iff ?_).2 ⟨?_, by decide, ?_⟩
  · exact ⟨by decide, trivial, trivial, trivial⟩
  · exact ⟨rfl, rfl, by simp [isConjunction, isDisjunction], trivial, trivial, trivial⟩
  · simp only [values, valuesList, List.append_nil, List.singleton_append, List.forall_mem_cons]
    exact ⟨by decide +kernel, by decide +kernel, by simp⟩

end Tree

namespace Parsed

/-- The tree of a valid query comes back from its canonical text, and nothing comes back from
nothing, exactly if every value that has stray characters also has a character that forces it into
quotes. -/
theorem canonical_reads_back_iff {q : Text} (h : (ofText q).isValid = true) :
    (∃ text, ((ofText q).root?.getD .absent).render? = .ok text ∧
      (ofText text).isValid = true ∧ (ofText text).root? = (ofText q).root?) ↔
    ∀ t, (ofText q).root? = some t → ∀ v ∈ t.values,
      v.any (fun c => Text.isBlank c || Text.isParen c || c == ':') = true ∨
        v.any Text.isStray = false := by
  cases hq : ofText q with
  | rejected e => simp [hq, isValid] at h
  | empty =>
    have hempty : ofText [] = .empty := rfl
    simp only [root?, reduceCtorEq, false_implies, implies_true, iff_true]
    exact ⟨[], rfl, by rw [hempty]; exact ⟨rfl, rfl⟩⟩
  | query t =>
    have hshaped := shaped_of_ofText hq
    simp only [root?, Option.getD_some, Option.some.injEq, forall_eq']
    constructor
    · rintro ⟨text, htext, -, hroot⟩ v hv
      rw [Tree.eq_render_of_render? htext] at hroot
      have hread := eq_query_of_root? hroot
      exact ((Tree.writable_of_ofText_render hread).2.2 v hv).2.2
    · intro hvalues
      have hw : t.Writable := by
        refine ⟨hshaped.layered, hshaped.nesting_le, fun v hv => ?_⟩
        obtain ⟨hne, hquote⟩ := hshaped.values v hv
        exact ⟨hne, hquote, hvalues v hv⟩
      have hread := hw.ofText_render hshaped.proper
      refine ⟨t.render, Tree.render?_eq_ok hshaped.proper.known hw.1 hw.2.1, ?_, ?_⟩
      · rw [hread]
        rfl
      · rw [hread]

/-- A control character in a phrase with a blank comes back. -/
theorem spaced_control_reads_back :
    ∃ text, ((ofText "title:\"a\x01 b\"".toList).root?.getD .absent).render? = .ok text ∧
      (ofText text).isValid = true ∧
        (ofText text).root? = (ofText "title:\"a\x01 b\"".toList).root? := by
  refine (canonical_reads_back_iff (by decide +kernel)).2 fun t ht => ?_
  have hq : ofText "title:\"a\x01 b\"".toList = .query (.leaf .title "a\x01 b".toList) := by
    decide +kernel
  rw [hq] at ht
  obtain rfl := Option.some.inj ht
  intro v hv
  obtain rfl := List.mem_singleton.1 hv
  exact .inl (by decide)

/-- A control character alone in a phrase is written without its quotes, which makes it no query. -/
theorem bare_control_not_read_back :
    (ofText "\"\x01\"".toList).isValid = true ∧
      ¬ ∃ text, ((ofText "\"\x01\"".toList).root?.getD .absent).render? = .ok text ∧
        (ofText text).isValid = true ∧
          (ofText text).root? = (ofText "\"\x01\"".toList).root? := by
  have hq : ofText "\"\x01\"".toList = .query (.leaf .anywhere ['\x01']) := by decide +kernel
  refine ⟨by rw [hq]; rfl, ?_⟩
  rintro ⟨text, htext, hvalid, -⟩
  rw [hq] at htext
  obtain rfl := Tree.eq_render_of_render? htext
  have hrejected : (ofText (Tree.leaf .anywhere ['\x01']).render).isValid = false := by
    decide +kernel
  exact absurd hvalid (by simp [root?, hrejected])

end Parsed

end NoteQuery

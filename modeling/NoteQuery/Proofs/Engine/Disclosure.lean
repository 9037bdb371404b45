import NoteQuery.Proofs.Engine.Answers

/-!
# What a search without bodies discloses

A search that does not ask for bodies tells nothing of them. The bodies have a say in which notes
are found, but what is told of a note that is found can be told without its body
(`Engine.resultFor_withoutBody`), and which note stands for an id does not depend on bodies
(`Tree.withoutBody_eq_of_selects`): over two corpora that differ in their bodies alone, searches for
one query tell the same of every id that both find (`Engine.results_agree_without_bodies`).
-/

set_option autoImplicit false

namespace NoteQuery

/-! ## Notes without their bodies -/

namespace Note

def withoutBody (note : Note) : Note :=
  { note with body := [] }

/-- Which notes are the first of their ids does not depend on bodies. -/
theorem firsts_map_withoutBody (notes : List Note) :
    firsts (notes.map withoutBody) = (firsts notes).map withoutBody := by
  induction notes with
  | nil => rfl
  | cons note notes ih =>
    rw [List.map_cons, firsts, firsts, List.map_cons, ih, List.filter_map]
    rfl

theorem eq_of_mem_firsts {a b : Note} {notes : List Note} (ha : a ∈ firsts notes)
    (hb : b ∈ firsts notes) (hid : a.id = b.id) : a = b := by
  have hother : ∀ {c first : Note} {rest : List Note},
      c ∈ rest.filter (fun other => !(other.id == first.id)) → c.id ≠ first.id := by
    intro c first rest hc
    simpa using (List.mem_filter.1 hc).2
  induction notes with
  | nil => exact absurd ha List.not_mem_nil
  | cons note notes ih =>
    rcases List.mem_cons.1 ha with rfl | ha
    · rcases List.mem_cons.1 hb with rfl | hb
      · rfl
      · exact absurd hid.symm (hother hb)
    · rcases List.mem_cons.1 hb with rfl | hb
      · exact absurd hid (hother ha)
      · exact ih (List.mem_filter.1 ha).1 (List.mem_filter.1 hb).1

end Note

/-- Over corpora that differ in their bodies alone, the notes that trees select for one id differ in
their bodies alone. -/
theorem Tree.withoutBody_eq_of_selects {corpus₁ corpus₂ : List Note} {mode₁ mode₂ : CaseMode}
    {t₁ t₂ : Tree} {note₁ note₂ : Note}
    (hcorpus : corpus₁.map Note.withoutBody = corpus₂.map Note.withoutBody)
    (h₁ : note₁ ∈ t₁.selects corpus₁ mode₁) (h₂ : note₂ ∈ t₂.selects corpus₂ mode₂)
    (hid : note₁.id = note₂.id) : note₁.withoutBody = note₂.withoutBody := by
  have hfirsts : (Note.firsts corpus₁).map Note.withoutBody =
      (Note.firsts corpus₂).map Note.withoutBody := by
    rw [← Note.firsts_map_withoutBody, hcorpus, Note.firsts_map_withoutBody]
  have hmem₁ : note₁.withoutBody ∈ (Note.firsts corpus₁).map Note.withoutBody :=
    List.mem_map.2 ⟨note₁, (List.mem_filter.1 h₁).1, rfl⟩
  have hmem₂ : note₂.withoutBody ∈ (Note.firsts corpus₁).map Note.withoutBody :=
    hfirsts ▸ List.mem_map.2 ⟨note₂, (List.mem_filter.1 h₂).1, rfl⟩
  rw [← Note.firsts_map_withoutBody] at hmem₁ hmem₂
  exact Note.eq_of_mem_firsts hmem₁ hmem₂ hid

/-! ## Highlights -/

namespace Highlight

variable {rules : Rules}

/-- Where bodies are not told, the body of a note has no say in what is found in the note. -/
theorem find?_withoutBody (h : rules.includeBody = false) (note : Note) (value : Text)
    (part : Note.Part) : find? rules note.withoutBody value part = find? rules note value part := by
  cases part with
  | tag | title => rfl
  | body =>
    have hnone : ∀ n : Note, find? rules n value .body = none := by
      intro n
      unfold find?
      split
      · rfl
      · simp only [h, Bool.not_false, if_true]
    rw [hnone, hnone]

theorem explain_withoutBody (h : rules.includeBody = false) (note : Note) (root : Option Tree) :
    explain rules note.withoutBody root = explain rules note root := by
  cases root with
  | none => rfl
  | some t =>
    have hfind : ∀ value, find? rules note.withoutBody value = find? rules note value := by
      intro value
      funext part
      exact find?_withoutBody h note value part
    unfold explain findings
    simp only [hfind]

end Highlight

/-! ## Results -/

namespace Engine

/-- Where bodies are not told, what is told of a note does not depend on its body. -/
theorem resultFor_withoutBody {options : Options} (h : options.includeBody = false) (e : Engine)
    (query : Text) (root : Tree) (elapsed : Float) (note : Note) :
    e.resultFor query root options elapsed note.withoutBody =
      e.resultFor query root options elapsed note := by
  have hexplain := @Highlight.explain_withoutBody (e.rules options) h note (some root)
  unfold resultFor
  rw [hexplain, h]
  rfl

/-- Searches of two engines with the same settings, for one query and without bodies, over corpora
that differ in their bodies alone: of every id that both find, whether or not they may be
cancelled, they tell the same, and they tell no body. -/
theorem results_agree_without_bodies {e₁ e₂ : Engine} (hsettings : e₁.settings = e₂.settings)
    (hnotes : e₁.snapshot.notes.map Note.withoutBody = e₂.snapshot.notes.map Note.withoutBody)
    {options : Options} (hbody : options.includeBody = false) (query : Text)
    (allowance₁ allowance₂ : Option Nat) (elapsed : Float) :
    ∀ r₁ ∈ (e₁.search query options allowance₁).results elapsed,
      ∀ r₂ ∈ (e₂.search query options allowance₂).results elapsed,
        r₁.noteId = r₂.noteId → r₁ = r₂ ∧ r₁.body = none := by
  intro r₁ hr₁ r₂ hr₂ hid
  obtain ⟨t, hquery, hr₁⟩ := exists_query_of_mem_results hr₁
  obtain ⟨t', hquery', hr₂⟩ := exists_query_of_mem_results hr₂
  obtain rfl : t = t' := Parsed.query.inj (hquery.symm.trans hquery')
  obtain ⟨note₁, hnote₁, rfl⟩ := exists_resultFor_of_mem_results hr₁
  obtain ⟨note₂, hnote₂, rfl⟩ := exists_resultFor_of_mem_results hr₂
  have hsame : note₁.withoutBody = note₂.withoutBody :=
    Tree.withoutBody_eq_of_selects hnotes hnote₁ hnote₂ hid
  have hengines : e₁.resultFor query t options elapsed note₂ =
      e₂.resultFor query t options elapsed note₂ := by
    unfold resultFor rules
    rw [hsettings]
  refine ⟨?_, ?_⟩
  · calc e₁.resultFor query t options elapsed note₁
        = e₁.resultFor query t options elapsed note₁.withoutBody :=
          (resultFor_withoutBody hbody e₁ query t elapsed note₁).symm
      _ = e₁.resultFor query t options elapsed note₂.withoutBody := by rw [hsame]
      _ = e₁.resultFor query t options elapsed note₂ :=
          resultFor_withoutBody hbody e₁ query t elapsed note₂
      _ = e₂.resultFor query t options elapsed note₂ := hengines
  · unfold resultFor
    simp only [hbody, Bool.false_eq_true, if_false]

/-- The bodies decide that only the first engine finds the second note. Of the first note, which
both find by its title, they tell the same. -/
theorem results_agree_of_plan :
    let settings : Settings := ⟨50, false, 100, 10, "default".toList, .info, true⟩
    let corpus (plan idea : Text) : List Note :=
      [⟨['1'], "Plan".toList, plan, ["x".toList], none, none⟩,
        ⟨['2'], "Idea".toList, idea, [], none, none⟩]
    let engine (plan idea : Text) : Engine := (create settings none).publish (corpus plan idea)
    let results (plan idea : Text) : List SearchResult :=
      ((engine plan idea).search "plan OR secret".toList ⟨50, false, false⟩ none).results 0
    (results "secret".toList "secret".toList).map (·.noteId) = [['1'], ['2']] ∧
      (results "old".toList "new".toList).map (·.noteId) = [['1']] ∧
      ∀ r₁ ∈ results "secret".toList "secret".toList, ∀ r₂ ∈ results "old".toList "new".toList,
        r₁.noteId = ['1'] → r₁ = r₂ := by
  intro settings corpus engine results
  have hsecond : (results "old".toList "new".toList).map (·.noteId) = [['1']] := by
    decide +kernel
  refine ⟨by decide +kernel, hsecond, ?_⟩
  intro r₁ hr₁ r₂ hr₂ hid
  have hid₂ : r₂.noteId = ['1'] := by
    have hmem : r₂.noteId ∈ (results "old".toList "new".toList).map (·.noteId) :=
      List.mem_map_of_mem hr₂
    rw [hsecond] at hmem
    exact List.mem_singleton.1 hmem
  have hagree := @results_agree_without_bodies (engine "secret".toList "secret".toList)
    (engine "old".toList "new".toList) rfl rfl ⟨50, false, false⟩ rfl
  exact (hagree "plan OR secret".toList none none 0 r₁ hr₁ r₂ hr₂ (hid.trans hid₂.symm)).1

end Engine

end NoteQuery

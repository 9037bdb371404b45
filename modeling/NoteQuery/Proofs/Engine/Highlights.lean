import NoteQuery.Proofs.Engine.Answers
import NoteQuery.Proofs.Search.Highlights

/-!
# Highlights of what a search finds

A search finds ids, and tells the first note of each. Every highlight that it tells has a place, but
the note that it tells need not be the one that was matched: `Engine.results_highlighted` says when
a result of a query without negations has highlights, and that it does where the note is the only
one with its id.
-/

set_option autoImplicit false

namespace NoteQuery

/-- Whether a result tells a note, with its body. -/
def SearchResult.Tells (note : Note) (r : SearchResult) : Prop :=
  r.noteId = note.id ∧ r.title = note.title ∧ r.body = some note.body ∧ r.tags = note.tags

namespace Tree

variable {corpus : List Note} {mode : CaseMode}

/-- A note that a tree without negations selects, and that shares its id with no other, is matched
by a leaf that speaks for the hit. -/
theorem NegationFree.exists_leaf_of_selects {note : Note} {t : Tree} (hn : t.NegationFree)
    (hf : t.Filled) (h : note ∈ t.selects corpus mode)
    (honly : ∀ other ∈ corpus, other.id = note.id → other = note) :
    ∃ l ∈ t.leaves, note.matchesLeaf mode l.1 l.2 = true := by
  obtain ⟨l, hl, hholds⟩ := hn.exists_leaf hf (mem_selects h).2
  obtain ⟨other, hother, hboth⟩ := List.any_eq_true.1 hholds
  obtain ⟨hid, hmatches⟩ := Bool.and_eq_true_iff.1 hboth
  obtain rfl := honly other hother (eq_of_beq hid)
  exact ⟨l, hl, hmatches⟩

end Tree

namespace Engine

variable {q : Text}

/-- The results of an answer tell notes that the tree selects, with their highlights. -/
theorem exists_note_of_mem_results {e : Engine} {t : Tree} {options : Options} {elapsed : Float}
    {r : SearchResult} (hbody : options.includeBody = true)
    (hr : r ∈ (e.answer q t options).results elapsed) :
    ∃ note ∈ t.selects e.snapshot.notes (.ofSensitive options.caseSensitive), r.Tells note ∧
      r.matched = (Highlight.explain (e.rules options) note (some t)).map Highlight.toMatch := by
  obtain ⟨note, hnote, rfl⟩ := exists_resultFor_of_mem_results hr
  refine ⟨note, hnote, ⟨rfl, rfl, ?_, rfl⟩, rfl⟩
  simp only [resultFor, hbody, if_true]

/-- Every hit that a search tells has a place. A result of a query without negations has a hit
exactly if one of the leaves matches the note that it tells, which is so where no other note has
the same id. -/
theorem results_highlighted (e : Engine) (options : Options) (hbody : options.includeBody = true)
    (allowance : Option Nat) (elapsed : Float)
    (hn : ∀ t, Parsed.ofText q = .query t → t.NegationFree) :
    ∀ r ∈ (e.search q options allowance).results elapsed,
      (∀ m ∈ r.matched, m.indices ≠ []) ∧
      ∃ t, Parsed.ofText q = .query t ∧ ∃ note ∈ e.snapshot.notes, r.Tells note ∧
        (r.matched ≠ [] ↔ ∃ leaf ∈ t.leaves,
          note.matchesLeaf (.ofSensitive options.caseSensitive) leaf.1 leaf.2 = true) ∧
        ((∀ other ∈ e.snapshot.notes, other.id = note.id → other = note) → r.matched ≠ []) := by
  intro r hr
  obtain ⟨t, hquery, hr⟩ := exists_query_of_mem_results hr
  obtain ⟨note, hnote, htells, hmatched⟩ := exists_note_of_mem_results hbody hr
  have hvalues : ∀ leaf ∈ t.leaves, leaf.2 ≠ [] := by
    intro leaf hleaf
    have hvalue := (Parsed.shaped_of_ofText hquery).values leaf.2
    exact (hvalue (Tree.mem_values_of_mem_leaves hleaf)).1
  have hspans := @Highlight.spans_ne_nil_of_mem_explain (e.rules options) note t hvalues
  have hiff : r.matched ≠ [] ↔ ∃ leaf ∈ t.leaves,
      note.matchesLeaf (.ofSensitive options.caseSensitive) leaf.1 leaf.2 = true := by
    have hfindings := @Highlight.findings_ne_nil_iff (e.rules options) note t hbody
    rw [hmatched, Ne, List.map_eq_nil_iff]
    exact Highlight.explain_ne_nil_iff.trans hfindings
  refine ⟨?_, t, hquery, note, (Tree.mem_selects hnote).1, htells, hiff, ?_⟩
  · intro m hm
    rw [hmatched] at hm
    obtain ⟨h, hh, rfl⟩ := List.mem_map.1 hm
    have hne : h.spans ≠ [] := hspans h hh
    intro hnil
    exact hne (List.map_eq_nil_iff.1 hnil)
  · -- The leaf that holds for the id matches some note with it: this one, if there is no other.
    intro honly
    have hfilled := Parsed.filled_of_ofText hquery
    exact hiff.2 ((hn t hquery).exists_leaf_of_selects hfilled hnote honly)

/-- Of two notes with different ids, the one with the title asked for is found, and its title is
highlighted. -/
theorem results_highlighted_title :
    let notes : List Note := [⟨['1'], "Plan".toList, [], [], none, none⟩,
      ⟨['2'], "Idea".toList, [], [], none, none⟩]
    let e := (create ⟨50, false, 100, 10, "default".toList, .info, true⟩ none).publish notes
    let results := (e.search "idea".toList ⟨50, true, false⟩ none).results 0
    results.map (·.noteId) = [['2']] ∧ ∀ r ∈ results, r.matched ≠ [] := by
  intro notes e results
  have hdistinct : ∀ note ∈ notes, ∀ other ∈ notes, other.id = note.id → other = note := by decide
  have hquery : Parsed.ofText "idea".toList = .query (.leaf .anywhere "idea".toList) := by
    decide +kernel
  have hn : ∀ t, Parsed.ofText "idea".toList = .query t → t.NegationFree := by
    intro t ht
    rw [hquery] at ht
    obtain rfl := Parsed.query.inj ht
    trivial
  refine ⟨by decide +kernel, ?_⟩
  intro r hr
  obtain ⟨-, t, -, note, hnote, -, -, honly⟩ :=
    results_highlighted e ⟨50, true, false⟩ rfl none 0 hn r hr
  exact honly (hdistinct note hnote)

/-- Of two notes with one id, the second has the title asked for and the first is told, without a
highlight. -/
theorem results_unhighlighted_shared_id :
    let notes : List Note := [⟨['1'], "Plan".toList, [], [], none, none⟩,
      ⟨['1'], "Idea".toList, [], [], none, none⟩]
    let e := (create ⟨50, false, 100, 10, "default".toList, .info, true⟩ none).publish notes
    Parsed.ofText "idea".toList = .query (.leaf .anywhere "idea".toList) ∧
      ∃ r ∈ (e.search "idea".toList ⟨50, true, false⟩ none).results 0, r.matched = [] := by
  decide +kernel

end Engine

end NoteQuery

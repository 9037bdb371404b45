import NoteQuery.Proofs.Query.Trees
import NoteQuery.Proofs.Search.Occurrences
import NoteQuery.Search.Highlight
import NoteQuery.Search.Meaning

/-!
# What highlights tell

A value that is not empty is found in a part of a note exactly if the part contains it, and then at
one place or more. Merging findings loses no place, so every highlight tells one
(`Highlight.spans_ne_nil_of_mem_explain`), and a note has highlights exactly if one of the leaves
that speak for a hit matches it (`Highlight.explain_ne_nil_iff`). A tree without negations holds
only where such a leaf does (`Tree.NegationFree.exists_leaf`).
-/

set_option autoImplicit false

namespace NoteQuery

namespace Highlight

variable {rules : Rules} {note : Note} {mode : CaseMode} {value : Text}

theorem tagSpans_ne_nil_iff (hne : value ≠ []) (offset : Nat) (tags : List Text) :
    tagSpans mode value offset tags ≠ [] ↔ Note.tagsContain mode value tags = true := by
  induction tags generalizing offset with
  | nil => simp [tagSpans, Note.tagsContain]
  | cons tag tags ih =>
    have hfirst := @Text.occurrences_ne_nil_iff mode value hne tag
    have hrest := ih (offset + tag.length + tagSeparator.length)
    unfold Note.tagsContain at hrest ⊢
    rw [tagSpans, List.any_cons, Bool.or_eq_true, ← hfirst, ← hrest, Ne, List.append_eq_nil_iff,
      List.map_eq_nil_iff]
    exact not_and_or

/-! ## Findings -/

/-- A value is found in a part that contains it, in the body only where bodies are told. -/
theorem exists_find?_iff {part : Note.Part} :
    (∃ f, find? rules note value part = some f) ↔
      note.partContains rules.mode value part = true ∧ (part = .body → rules.includeBody = true) := by
  unfold find?
  cases hcontains : note.partContains rules.mode value part with
  | false => simp
  | true => cases part <;> simp

/-- What is found is found at some place. -/
theorem spans_ne_nil_of_find? {part : Note.Part} {f : Highlight} (hne : value ≠ [])
    (h : find? rules note value part = some f) : f.spans ≠ [] := by
  have hcontains := (exists_find?_iff.1 ⟨f, h⟩).1
  unfold find? at h
  rw [hcontains] at h
  cases part with
  | tag =>
    obtain rfl := Option.some.inj h
    exact (tagSpans_ne_nil_iff hne 0 note.tags).2 hcontains
  | title =>
    obtain rfl := Option.some.inj h
    exact (Text.occurrences_ne_nil_iff hne note.title).2 hcontains
  | body =>
    cases hbody : rules.includeBody with
    | false => simp [hbody] at h
    | true =>
      simp only [hbody, Bool.not_true, Bool.false_eq_true, if_false] at h
      obtain rfl := Option.some.inj h
      exact (Text.occurrences_ne_nil_iff hne note.body).2 hcontains

theorem mem_findings {t : Tree} {f : Highlight} :
    f ∈ findings rules note t ↔
      ∃ leaf ∈ t.leaves, ∃ part ∈ leaf.1.parts, find? rules note leaf.2 part = some f := by
  unfold findings
  rw [List.mem_flatMap]
  exact exists_congr fun leaf => and_congr_right fun _ => List.mem_filterMap

/-- Where bodies are told, a note has findings exactly if it is matched by a leaf that speaks for a
hit. -/
theorem findings_ne_nil_iff {t : Tree} (hbody : rules.includeBody = true) :
    findings rules note t ≠ [] ↔
      ∃ leaf ∈ t.leaves, note.matchesLeaf rules.mode leaf.1 leaf.2 = true := by
  constructor
  · intro hne
    obtain ⟨f, hf⟩ := List.exists_mem_of_ne_nil _ hne
    obtain ⟨leaf, hleaf, part, hpart, hfind⟩ := mem_findings.1 hf
    exact ⟨leaf, hleaf, List.any_eq_true.2 ⟨part, hpart, (exists_find?_iff.1 ⟨f, hfind⟩).1⟩⟩
  · rintro ⟨leaf, hleaf, hmatches⟩
    obtain ⟨part, hpart, hcontains⟩ := List.any_eq_true.1 hmatches
    obtain ⟨f, hfind⟩ := exists_find?_iff.2 ⟨hcontains, fun _ => hbody⟩
    exact List.ne_nil_of_mem (mem_findings.2 ⟨leaf, hleaf, part, hpart, hfind⟩)

/-! ## Merging -/

/-- Merging keeps every place. -/
theorem mem_spans_merge {h : Highlight} {spans : List Span} {s : Span} :
    s ∈ (h.merge spans).spans ↔ s ∈ h.spans ∨ s ∈ spans := by
  induction spans generalizing h with
  | nil => exact (or_iff_left List.not_mem_nil).symm
  | cons first spans ih =>
    have hmerge : (h.merge (first :: spans)).spans =
        (merge { h with spans := insertAscending Span.before first h.spans } spans).spans := rfl
    rw [hmerge, ih, mem_insertAscending, List.mem_cons, or_assoc, or_left_comm]

theorem add_ne_nil (f : Highlight) (hs : List Highlight) : add f hs ≠ [] := by
  cases hs with
  | nil => exact List.cons_ne_nil _ _
  | cons h hs =>
    rw [add]
    split
    · exact List.cons_ne_nil _ _
    · exact List.cons_ne_nil _ _

/-- What merging with a finding leaves true stays true of all highlights to which it is added. -/
theorem forall_mem_add {P : Highlight → Prop} {f : Highlight} {hs : List Highlight}
    (hnew : P (merge ⟨f.part, f.excerpt, []⟩ f.spans)) (hmerge : ∀ h, P h → P (h.merge f.spans))
    (hhs : ∀ h ∈ hs, P h) : ∀ h ∈ add f hs, P h := by
  induction hs with
  | nil => exact List.forall_mem_singleton.2 hnew
  | cons h hs ih =>
    obtain ⟨hfirst, hrest⟩ := List.forall_mem_cons.1 hhs
    rw [add]
    split
    · exact List.forall_mem_cons.2 ⟨hmerge h hfirst, hrest⟩
    · exact List.forall_mem_cons.2 ⟨hfirst, ih hrest⟩

/-- Adding a finding with a place leaves every highlight with a place. -/
theorem spans_ne_nil_of_mem_add {f : Highlight} {hs : List Highlight} (hf : f.spans ≠ [])
    (hhs : ∀ h ∈ hs, h.spans ≠ []) : ∀ h ∈ add f hs, h.spans ≠ [] := by
  have hmerge : ∀ h : Highlight, (h.merge f.spans).spans ≠ [] := by
    intro h
    obtain ⟨s, hs⟩ := List.exists_mem_of_ne_nil f.spans hf
    exact List.ne_nil_of_mem (mem_spans_merge.2 (.inr hs))
  exact forall_mem_add (hmerge _) (fun h _ => hmerge h) hhs

/-- A note has highlights exactly if it has findings. -/
theorem explain_ne_nil_iff {t : Tree} :
    explain rules note (some t) ≠ [] ↔ findings rules note t ≠ [] := by
  have hfold : ∀ (fs hs : List Highlight), hs ≠ [] → fs.foldl (fun acc f => add f acc) hs ≠ [] := by
    intro fs
    induction fs with
    | nil => exact fun hs hne => hne
    | cons f fs ih => exact fun hs _ => ih (add f hs) (add_ne_nil f hs)
  have hexplain : explain rules note (some t) =
      (findings rules note t).foldl (fun acc f => add f acc) [] := rfl
  rw [hexplain]
  cases findings rules note t with
  | nil => exact Iff.rfl
  | cons f fs => exact iff_of_true (hfold fs (add f []) (add_ne_nil f [])) (List.cons_ne_nil f fs)

/-- Every highlight of a note for a tree without empty values tells a place. -/
theorem spans_ne_nil_of_mem_explain {t : Tree} (hvalues : ∀ leaf ∈ t.leaves, leaf.2 ≠ []) :
    ∀ h ∈ explain rules note (some t), h.spans ≠ [] := by
  have hfindings : ∀ f ∈ findings rules note t, f.spans ≠ [] := by
    intro f hf
    obtain ⟨leaf, hleaf, part, -, hfind⟩ := mem_findings.1 hf
    exact spans_ne_nil_of_find? (hvalues leaf hleaf) hfind
  have hfold : ∀ fs : List Highlight, (∀ f ∈ fs, f.spans ≠ []) → ∀ hs : List Highlight,
      (∀ h ∈ hs, h.spans ≠ []) → ∀ h ∈ fs.foldl (fun acc f => add f acc) hs, h.spans ≠ [] := by
    intro fs
    induction fs with
    | nil => exact fun _ hs hhs => hhs
    | cons f fs ih =>
      intro hfs hs hhs
      obtain ⟨hf, hfs⟩ := List.forall_mem_cons.1 hfs
      exact ih hfs (add f hs) (spans_ne_nil_of_mem_add hf hhs)
  exact hfold _ hfindings [] fun h hh => absurd hh List.not_mem_nil

end Highlight

/-! ## Trees without negations -/

namespace Tree

mutual

/-- Whether no node of a tree is a negation. -/
def NegationFree : Tree → Prop
  | .leaf _ _ => True
  | .all cs => NegationFreeList cs
  | .any cs => NegationFreeList cs
  | .negation _ => False
  | .group c => NegationFree c
  | .absent => True
  | .unknown _ => True

/-- Whether no node of several trees is a negation. -/
def NegationFreeList : List Tree → Prop
  | [] => True
  | c :: cs => NegationFree c ∧ NegationFreeList cs

end

theorem negationFreeList_iff {cs : List Tree} :
    NegationFreeList cs ↔ ∀ c ∈ cs, c.NegationFree := by
  induction cs with
  | nil => simp [NegationFreeList]
  | cons c cs ih => simp [NegationFreeList, ih]

theorem mem_leavesList {cs : List Tree} {l : Field × Text} :
    l ∈ leavesList cs ↔ ∃ c ∈ cs, l ∈ c.leaves := by
  induction cs with
  | nil => simp [leavesList]
  | cons c cs ih => simp [leavesList, ih]

theorem mem_values_of_mem_leaves {t : Tree} {l : Field × Text} (h : l ∈ t.leaves) :
    l.2 ∈ t.values := by
  induction t with
  | leaf f v =>
    obtain rfl := List.mem_singleton.1 h
    exact List.mem_singleton.2 rfl
  | all cs ih | any cs ih =>
    obtain ⟨c, hc, hl⟩ := mem_leavesList.1 h
    exact mem_valuesList.2 ⟨c, hc, ih c hc hl⟩
  | negation c ih => exact absurd h List.not_mem_nil
  | group c ih => exact ih h
  | absent | unknown kind => exact absurd h List.not_mem_nil

/-- Without negations a tree holds only where a leaf that speaks for a hit does. -/
theorem NegationFree.exists_leaf {leaf : Field → Text → Bool} {t : Tree} (hn : t.NegationFree)
    (hf : t.Filled) (h : t.holds leaf = true) : ∃ l ∈ t.leaves, leaf l.1 l.2 = true := by
  induction t with
  | leaf f v => exact ⟨(f, v), List.mem_singleton.2 rfl, h⟩
  | all cs ih =>
    obtain ⟨c, hc⟩ := List.exists_mem_of_ne_nil cs hf.1
    have hnc := negationFreeList_iff.1 hn c hc
    have hfc := filledList_iff.1 hf.2 c hc
    obtain ⟨l, hl, hholds⟩ := ih c hc hnc hfc (allHold_iff.1 h c hc)
    exact ⟨l, mem_leavesList.2 ⟨c, hc, hl⟩, hholds⟩
  | any cs ih =>
    obtain ⟨c, hc, hcholds⟩ := anyHolds_iff.1 h
    have hnc := negationFreeList_iff.1 hn c hc
    have hfc := filledList_iff.1 hf c hc
    obtain ⟨l, hl, hholds⟩ := ih c hc hnc hfc hcholds
    exact ⟨l, mem_leavesList.2 ⟨c, hc, hl⟩, hholds⟩
  | negation c ih => exact absurd hn id
  | group c ih => exact ih hn hf h
  | absent | unknown kind => exact absurd h Bool.false_ne_true

end Tree

end NoteQuery

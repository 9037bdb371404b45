import NoteQuery.Proofs.Query.Nesting
import NoteQuery.Proofs.Search.Highlights

/-!
# Highlights are exact

The highlights of a note for a tree tell all that its leaves find and nothing else
(`Highlight.explain?_exact`). A leaf speaks for a hit if a way from the root leads to it without
entering a negation (`Tree.Speaks`), and it finds its value in the parts in which it looks
(`Note.HitAt`).

Highlights collect findings one by one (`Highlight.Collects`): adding a finding makes a new
highlight or widens the one that shows the same of the same part, so each finding is told exactly
once.
-/

set_option autoImplicit false

namespace NoteQuery

/-! ## Leaves that speak for a hit -/

/-- Whether a leaf speaks for a hit: a way from the root leads to it and enters no negation. -/
def Tree.Speaks (t : Tree) (field : Field) (value : Text) : Prop :=
  ∃ path, t.Branch path ∧ .leaf field value ∈ path ∧ ∀ c, .negation c ∉ path

theorem Tree.mem_leaves_iff {t : Tree} {field : Field} {value : Text} :
    (field, value) ∈ t.leaves ↔ t.Speaks field value := by
  constructor
  · intro h
    induction t with
    | leaf f v =>
      obtain ⟨rfl, rfl⟩ := Prod.mk.inj (List.mem_singleton.1 h)
      exact ⟨_, .leaf, List.mem_singleton.2 rfl, by simp⟩
    | all cs ih =>
      obtain ⟨c, hc, hl⟩ := mem_leavesList.1 h
      obtain ⟨path, hpath, hmem, hneg⟩ := ih c hc hl
      exact ⟨_, .all hc hpath, List.mem_cons_of_mem _ hmem, by simpa using hneg⟩
    | any cs ih =>
      obtain ⟨c, hc, hl⟩ := mem_leavesList.1 h
      obtain ⟨path, hpath, hmem, hneg⟩ := ih c hc hl
      exact ⟨_, .any hc hpath, List.mem_cons_of_mem _ hmem, by simpa using hneg⟩
    | negation c ih => exact absurd h List.not_mem_nil
    | group c ih =>
      obtain ⟨path, hpath, hmem, hneg⟩ := ih h
      exact ⟨_, .group hpath, List.mem_cons_of_mem _ hmem, by simpa using hneg⟩
    | absent | unknown kind => exact absurd h List.not_mem_nil
  · rintro ⟨path, hpath, hmem, hneg⟩
    induction hpath with
    | leaf =>
      obtain ⟨rfl, rfl⟩ := Tree.leaf.inj (List.mem_singleton.1 hmem)
      exact List.mem_singleton.2 rfl
    | all hc _ ih | any hc _ ih =>
      have hmem := (List.mem_cons.1 hmem).resolve_left Tree.noConfusion
      have hneg := fun c h => hneg c (List.mem_cons_of_mem _ h)
      exact mem_leavesList.2 ⟨_, hc, ih hmem hneg⟩
    | negation _ _ => exact absurd List.mem_cons_self (hneg _)
    | group _ ih =>
      have hmem := (List.mem_cons.1 hmem).resolve_left Tree.noConfusion
      exact ih hmem fun c h => hneg c (List.mem_cons_of_mem _ h)

/-! ## Hits in a note -/

namespace Span

theorem before_iff {s t : Span} :
    s.before t = true ↔ s.start < t.start ∨ s.start = t.start ∧ s.stop < t.stop := by
  simp [before]

theorem before_trans (s t u : Span) (hst : s.before t = true) (htu : t.before u = true) :
    s.before u = true := by
  rw [before_iff] at hst htu ⊢
  omega

theorem before_total (s t : Span) : s.before t = true ∨ s = t ∨ t.before s = true := by
  rw [before_iff, before_iff]
  by_cases hstart : s.start = t.start
  · by_cases hstop : s.stop = t.stop
    · exact .inr (.inl (Span.ext hstart hstop))
    · omega
  · omega

end Span

/-- What some tags take in the line of tags, with what separates them from the next. -/
def Highlight.tagOffset (tags : List Text) : Nat :=
  (tags.flatMap (· ++ tagSeparator)).length

/-- Where a value hits a part of a note. A hit in a tag is as many characters further on as the tags
in front of it take in the line of tags. -/
inductive Note.HitAt (mode : CaseMode) (value : Text) (note : Note) : Note.Part → Span → Prop
  | title {s : Span} : s ∈ Text.occurrences mode value note.title → HitAt mode value note .title s
  | body {s : Span} : s ∈ Text.occurrences mode value note.body → HitAt mode value note .body s
  | tag {before after : List Text} {tag : Text} {s : Span} : note.tags = before ++ tag :: after →
      s ∈ Text.occurrences mode value tag →
      HitAt mode value note .tag (s.shift (Highlight.tagOffset before))

namespace Highlight

variable {rules : Rules} {note : Note} {mode : CaseMode} {value : Text}

theorem mem_tagSpans {offset : Nat} {tags : List Text} {s : Span} :
    s ∈ tagSpans mode value offset tags ↔
      ∃ before tag after, tags = before ++ tag :: after ∧
        ∃ o ∈ Text.occurrences mode value tag, s = o.shift (offset + tagOffset before) := by
  induction tags generalizing offset with
  | nil => simp [tagSpans]
  | cons first tags ih =>
    have hoffset : ∀ before, offset + tagOffset (first :: before) =
        offset + first.length + tagSeparator.length + tagOffset before := by
      intro before
      simp only [tagOffset, List.flatMap_cons, List.length_append]
      omega
    rw [tagSpans, List.mem_append, List.mem_map, ih]
    constructor
    · rintro (⟨o, ho, rfl⟩ | ⟨before, tag, after, rfl, o, ho, rfl⟩)
      · exact ⟨[], first, tags, rfl, o, ho, rfl⟩
      · exact ⟨first :: before, tag, after, rfl, o, ho, by rw [hoffset]⟩
    · rintro ⟨before, tag, after, hsplit, o, ho, rfl⟩
      cases before with
      | nil =>
        obtain ⟨rfl, -⟩ := List.cons.inj hsplit
        exact .inl ⟨o, ho, rfl⟩
      | cons _ before =>
        obtain ⟨rfl, rfl⟩ := List.cons.inj hsplit
        exact .inr ⟨before, tag, after, rfl, o, ho, by rw [hoffset]⟩

theorem of_find? {part : Note.Part} {f : Highlight} (h : find? rules note value part = some f) :
    f.part = part ∧ (∀ s, s ∈ f.spans ↔ note.HitAt rules.mode value part s) ∧
      (part = .tag → f.excerpt = tagLine note.tags) ∧ (part = .title → f.excerpt = note.title) := by
  obtain ⟨hcontains, hbody⟩ := exists_find?_iff.1 ⟨f, h⟩
  unfold find? at h
  rw [hcontains] at h
  cases part with
  | tag =>
    obtain rfl := Option.some.inj h
    refine ⟨rfl, fun s => mem_tagSpans.trans ?_, fun _ => rfl, Note.Part.noConfusion⟩
    constructor
    · rintro ⟨before, tag, after, hsplit, o, ho, rfl⟩
      rw [Nat.zero_add]
      exact .tag hsplit ho
    · intro hs
      cases hs with
      | tag hsplit ho => exact ⟨_, _, _, hsplit, _, ho, by rw [Nat.zero_add]⟩
  | title =>
    obtain rfl := Option.some.inj h
    refine ⟨rfl, fun s => ⟨.title, fun hs => ?_⟩, Note.Part.noConfusion, fun _ => rfl⟩
    cases hs with
    | title hs => exact hs
  | body =>
    rw [hbody rfl] at h
    obtain rfl := Option.some.inj h
    refine ⟨rfl, fun s => ⟨.body, fun hs => ?_⟩, Note.Part.noConfusion, Note.Part.noConfusion⟩
    cases hs with
    | body hs => exact hs

/-! ## Hits in the line of tags -/

/-- A tag stands in the line of tags behind what the tags in front of it take. -/
theorem exists_tagLine_eq (before after : List Text) (tag : Text) :
    ∃ rest, tagLine (before ++ tag :: after) =
      before.flatMap (· ++ tagSeparator) ++ (tag ++ rest) := by
  induction before with
  | nil =>
    cases after with
    | nil => exact ⟨[], by simp [tagLine, Text.join, List.intercalate]⟩
    | cons next after =>
      exact ⟨tagSeparator ++ tagLine (next :: after), by
        simp [tagLine, Text.join, List.intercalate]⟩
  | cons first before ih =>
    obtain ⟨rest, hrest⟩ := ih
    have hcons : ∀ ts : List Text, ts ≠ [] →
        tagLine (first :: ts) = first ++ tagSeparator ++ tagLine ts := by
      intro ts hne
      obtain ⟨t, ts, rfl⟩ := List.exists_cons_of_ne_nil hne
      simp [tagLine, Text.join, List.intercalate]
    refine ⟨rest, ?_⟩
    rw [List.cons_append, hcons _ (by simp), hrest, List.flatMap_cons]
    simp only [List.append_assoc]

theorem slice_tagLine {before after : List Text} {tag : Text} {s : Span}
    (h : s.stop ≤ tag.length) :
    Text.slice (tagLine (before ++ tag :: after)) (s.shift (tagOffset before)).start
      (s.shift (tagOffset before)).stop = Text.slice tag s.start s.stop := by
  obtain ⟨rest, hline⟩ := exists_tagLine_eq before after tag
  rw [hline, Span.shift, tagOffset, Text.slice, List.take_length_add_append,
    List.drop_length_add_append, List.take_append_of_le_length h, Text.slice]

/-! ## Collecting findings -/

/-- What a highlight shows of which part of a note. -/
def key (h : Highlight) : Note.Part × Text :=
  (h.part, h.excerpt)

@[simp]
theorem key_merge (h : Highlight) (spans : List Span) : (h.merge spans).key = h.key := rfl

/-- A finding goes to the first highlight with its key. -/
theorem add_cons (f h : Highlight) (hs : List Highlight) :
    add f (h :: hs) = if h.key = f.key then h.merge f.spans :: hs else h :: add f hs := by
  simp only [add, key, Prod.mk.injEq]

/-- Whether some highlights tell a hit under a key. -/
def Tell (hs : List Highlight) (k : Note.Part × Text) (s : Span) : Prop :=
  ∃ h ∈ hs, h.key = k ∧ s ∈ h.spans

/-- Whether highlights are what some findings come to. -/
structure Collects (fs hs : List Highlight) : Prop where
  /-- No two highlights show the same of the same part. -/
  distinct : (hs.map key).Nodup
  keys : ∀ k, k ∈ hs.map key ↔ k ∈ fs.map key
  tell : ∀ k s, Tell hs k s ↔ Tell fs k s
  ascending : ∀ h ∈ hs, h.spans.Pairwise fun s t => s.before t = true

variable {f : Highlight} {fs hs : List Highlight} {k : Note.Part × Text} {s : Span}

theorem tell_cons {h : Highlight} : Tell (h :: hs) k s ↔ h.key = k ∧ s ∈ h.spans ∨ Tell hs k s := by
  simp [Tell]

theorem mem_keys_add : k ∈ (add f hs).map key ↔ k ∈ hs.map key ∨ k = f.key := by
  induction hs with
  | nil => simp [add, merge, key]
  | cons h hs ih =>
    rw [add_cons]
    split
    · rename_i hkey
      rw [List.map_cons, List.map_cons, key_merge, hkey, List.mem_cons, or_right_comm, or_self]
    · rw [List.map_cons, List.map_cons, List.mem_cons, List.mem_cons, ih, or_assoc]

theorem nodup_keys_add (hnodup : (hs.map key).Nodup) : ((add f hs).map key).Nodup := by
  induction hs with
  | nil => exact List.nodup_cons.2 ⟨List.not_mem_nil, List.nodup_nil⟩
  | cons h hs ih =>
    rw [List.map_cons, List.nodup_cons] at hnodup
    rw [add_cons]
    split
    · rw [List.map_cons, key_merge]
      exact List.nodup_cons.2 hnodup
    · rename_i hne
      rw [List.map_cons, List.nodup_cons, mem_keys_add, not_or]
      exact ⟨⟨hnodup.1, hne⟩, ih hnodup.2⟩

theorem tell_add : Tell (add f hs) k s ↔ Tell hs k s ∨ f.key = k ∧ s ∈ f.spans := by
  have hmerge : ∀ h : Highlight, h.key = f.key →
      ((h.merge f.spans).key = k ∧ s ∈ (h.merge f.spans).spans ↔
        h.key = k ∧ s ∈ h.spans ∨ f.key = k ∧ s ∈ f.spans) := by
    intro h hkey
    rw [key_merge, mem_spans_merge, hkey, and_or_left]
  induction hs with
  | nil =>
    have hnew := hmerge ⟨f.part, f.excerpt, []⟩ rfl
    simp only [List.not_mem_nil, and_false, false_or] at hnew
    rw [add, tell_cons, hnew, or_comm]
  | cons h hs ih =>
    rw [add_cons]
    split
    · rename_i hkey
      rw [tell_cons, tell_cons, hmerge h hkey, or_right_comm]
    · rw [tell_cons, tell_cons, or_assoc]
      exact or_congr_right ih

theorem pairwise_spans_merge {h : Highlight} {spans : List Span}
    (hh : h.spans.Pairwise fun s t => s.before t = true) :
    (h.merge spans).spans.Pairwise fun s t => s.before t = true := by
  induction spans generalizing h with
  | nil => exact hh
  | cons first spans ih =>
    exact @ih { h with spans := insertAscending Span.before first h.spans }
      (pairwise_insertAscending Span.before_trans (fun t _ => Span.before_total _ t) hh)

theorem Collects.add (h : Collects fs hs) (f : Highlight) : Collects (fs ++ [f]) (add f hs) where
  distinct := nodup_keys_add h.distinct
  keys k := by
    rw [mem_keys_add, h.keys, List.map_append, List.mem_append, List.map_singleton,
      List.mem_singleton]
  tell k s := by
    have happend : Tell (fs ++ [f]) k s ↔ Tell fs k s ∨ f.key = k ∧ s ∈ f.spans := by
      simp [Tell, or_and_right, exists_or]
    rw [tell_add, h.tell, happend]
  ascending := forall_mem_add (pairwise_spans_merge List.Pairwise.nil)
    (fun _ => pairwise_spans_merge) h.ascending

theorem Collects.foldl (h : Collects fs hs) (gs : List Highlight) :
    Collects (fs ++ gs) (gs.foldl (fun acc f => Highlight.add f acc) hs) := by
  induction gs generalizing fs hs with
  | nil =>
    rw [List.append_nil]
    exact h
  | cons g gs ih =>
    have hrest := ih (h.add g)
    rwa [List.append_assoc] at hrest

theorem collects_nil : Collects [] [] :=
  ⟨List.nodup_nil, fun _ => Iff.rfl, fun _ _ => Iff.rfl, fun _ hh => absurd hh List.not_mem_nil⟩

/-- The highlights of a note are what its findings come to. -/
theorem collects_explain (t : Tree) :
    Collects (findings rules note t) (explain rules note (some t)) :=
  collects_nil.foldl (findings rules note t)

theorem exists_part_iff {part : Note.Part} :
    (∃ h ∈ hs, h.part = part) ↔ ∃ excerpt, (part, excerpt) ∈ hs.map key := by
  constructor
  · rintro ⟨h, hh, rfl⟩
    exact ⟨h.excerpt, List.mem_map_of_mem hh⟩
  · rintro ⟨excerpt, hk⟩
    obtain ⟨h, hh, hkey⟩ := List.mem_map.1 hk
    exact ⟨h, hh, congrArg Prod.fst hkey⟩

theorem exists_span_iff {part : Note.Part} :
    (∃ h ∈ hs, h.part = part ∧ s ∈ h.spans) ↔ ∃ excerpt, Tell hs (part, excerpt) s := by
  constructor
  · rintro ⟨h, hh, rfl, hs⟩
    exact ⟨h.excerpt, h, hh, rfl, hs⟩
  · rintro ⟨excerpt, h, hh, hkey, hs⟩
    exact ⟨h, hh, congrArg Prod.fst hkey, hs⟩

/-- Highlights of one part that show the same are one. -/
theorem countP_part_le_one {part : Note.Part} {excerpt : Text} (hdistinct : (hs.map key).Nodup)
    (hsame : ∀ h ∈ hs, h.part = part → h.excerpt = excerpt) :
    hs.countP (fun h => h.part = part) ≤ 1 := by
  have hsub : ((hs.filter fun h => h.part = part).map key).Sublist (hs.map key) :=
    List.filter_sublist.map key
  have hall : (hs.filter fun h => h.part = part).map key =
      List.replicate (hs.filter fun h => h.part = part).length (part, excerpt) := by
    refine List.eq_replicate_iff.2 ⟨List.length_map _, fun k hk => ?_⟩
    obtain ⟨h, hh, rfl⟩ := List.mem_map.1 hk
    obtain ⟨hh, hpart⟩ := List.mem_filter.1 hh
    have hpart := of_decide_eq_true hpart
    exact Prod.ext hpart (hsame h hh hpart)
  have hnodup := hsub.nodup hdistinct
  rw [hall, List.nodup_replicate] at hnodup
  rwa [List.countP_eq_length_filter]

/-! ## Exactness -/

/-- Whether a value is told in a part of a note: a leaf that speaks for a hit looks for it there,
and there it occurs; in the body only where bodies are told. -/
def Told (rules : Rules) (note : Note) (root : Option Tree) (part : Note.Part) (value : Text) :
    Prop :=
  (∃ t ∈ root, ∃ field, t.Speaks field value ∧ part ∈ field.parts) ∧
    note.partContains rules.mode value part = true ∧ (part = .body → rules.includeBody = true)

/-- Whether highlights tell what the leaves of a tree find in a note, and nothing else. -/
structure Exact (rules : Rules) (note : Note) (root : Option Tree) (hs : List Highlight) :
    Prop where
  /-- There is a highlight of a part exactly if a value is told in it. -/
  told : ∀ part, (∃ h ∈ hs, h.part = part) ↔ ∃ value, Told rules note root part value
  /-- No two highlights show the same of the same part. -/
  distinct : (hs.map key).Nodup
  /-- The tags and the title have one highlight at most. -/
  single : ∀ part, part ≠ .body → hs.countP (fun h => h.part = part) ≤ 1
  /-- The hits of each highlight are in order, each once. -/
  ascending : ∀ h ∈ hs, h.spans.Pairwise fun s t => s.before t = true
  /-- The highlights of a part tell the hits of the values that are told in it. -/
  hits : ∀ part s, (∃ h ∈ hs, h.part = part ∧ s ∈ h.spans) ↔
    ∃ value, Told rules note root part value ∧ note.HitAt rules.mode value part s
  /-- At a hit in the tags, the excerpt shows an occurrence of a value in a single tag. -/
  inTag : ∀ h ∈ hs, h.part = .tag → ∀ s ∈ h.spans, ∃ value, Told rules note root .tag value ∧
    ∃ tag ∈ note.tags, ∃ o ∈ Text.occurrences rules.mode value tag, o.stop ≤ tag.length ∧
      Text.slice h.excerpt s.start s.stop = Text.slice tag o.start o.stop ∧
      List.Forall₂ (fun n c => rules.mode.related n c = true) value (Text.slice tag o.start o.stop)

/-- Findings are made where values are told. -/
theorem mem_findings_iff_told {t : Tree} :
    f ∈ findings rules note t ↔
      ∃ part value, Told rules note (some t) part value ∧ find? rules note value part = some f := by
  rw [mem_findings]
  constructor
  · rintro ⟨⟨field, value⟩, hleaf, part, hpart, hfind⟩
    obtain ⟨hcontains, hbody⟩ := exists_find?_iff.1 ⟨f, hfind⟩
    have hspeaks := Tree.mem_leaves_iff.1 hleaf
    exact ⟨part, value, ⟨⟨t, rfl, field, hspeaks, hpart⟩, hcontains, hbody⟩, hfind⟩
  · rintro ⟨part, value, ⟨⟨_, ⟨⟩, field, hspeaks, hpart⟩, -, -⟩, hfind⟩
    exact ⟨(field, value), Tree.mem_leaves_iff.2 hspeaks, part, hpart, hfind⟩

section Findings

variable {root : Option Tree} (h : Collects fs hs)
  (hfs : ∀ f, f ∈ fs ↔
    ∃ part value, Told rules note root part value ∧ find? rules note value part = some f)

include h hfs

/-- Highlights show what the findings show: the line of tags, or the title. -/
theorem Collects.excerpt_eq {g : Highlight} (hg : g ∈ hs) :
    (g.part = .tag → g.excerpt = tagLine note.tags) ∧
      (g.part = .title → g.excerpt = note.title) := by
  obtain ⟨f, hf, hkey⟩ := List.mem_map.1 ((h.keys g.key).1 (List.mem_map_of_mem hg))
  obtain ⟨part, value, -, hfind⟩ := (hfs f).1 hf
  obtain ⟨rfl, -, htag, htitle⟩ := of_find? hfind
  obtain ⟨hpart, hexcerpt⟩ := Prod.mk.inj hkey
  rw [← hpart, ← hexcerpt]
  exact ⟨htag, htitle⟩

theorem Collects.told_iff (part : Note.Part) :
    (∃ g ∈ hs, g.part = part) ↔ ∃ value, Told rules note root part value := by
  rw [exists_part_iff, exists_congr fun excerpt => h.keys (part, excerpt), ← exists_part_iff]
  constructor
  · rintro ⟨f, hf, rfl⟩
    obtain ⟨part, value, htold, hfind⟩ := (hfs f).1 hf
    obtain ⟨rfl, -⟩ := of_find? hfind
    exact ⟨value, htold⟩
  · rintro ⟨value, htold⟩
    obtain ⟨f, hfind⟩ := exists_find?_iff.2 htold.2
    exact ⟨f, (hfs f).2 ⟨part, value, htold, hfind⟩, (of_find? hfind).1⟩

theorem Collects.hits_iff (part : Note.Part) (s : Span) :
    (∃ g ∈ hs, g.part = part ∧ s ∈ g.spans) ↔
      ∃ value, Told rules note root part value ∧ note.HitAt rules.mode value part s := by
  rw [exists_span_iff, exists_congr fun excerpt => h.tell (part, excerpt) s, ← exists_span_iff]
  constructor
  · rintro ⟨f, hf, rfl, hs⟩
    obtain ⟨part, value, htold, hfind⟩ := (hfs f).1 hf
    obtain ⟨rfl, hspans, -, -⟩ := of_find? hfind
    exact ⟨value, htold, (hspans s).1 hs⟩
  · rintro ⟨value, htold, hhit⟩
    obtain ⟨f, hfind⟩ := exists_find?_iff.2 htold.2
    obtain ⟨hpart, hspans, -, -⟩ := of_find? hfind
    exact ⟨f, (hfs f).2 ⟨part, value, htold, hfind⟩, hpart, (hspans s).2 hhit⟩

/-- Highlights that collect the findings of the values that are told are exact. -/
theorem Collects.exact : Exact rules note root hs := by
  refine ⟨h.told_iff hfs, h.distinct, ?single, h.ascending, h.hits_iff hfs, ?inTag⟩
  case single =>
    intro part hpart
    cases part with
    | tag => exact countP_part_le_one h.distinct fun g hg => (h.excerpt_eq hfs hg).1
    | title => exact countP_part_le_one h.distinct fun g hg => (h.excerpt_eq hfs hg).2
    | body => exact absurd rfl hpart
  case inTag =>
    intro g hg hpart s hs
    obtain ⟨value, htold, hhit⟩ := (h.hits_iff hfs .tag s).1 ⟨g, hg, hpart, hs⟩
    rw [(h.excerpt_eq hfs hg).1 hpart]
    cases hhit with
    | tag hsplit ho =>
      obtain ⟨hstop, hmatch⟩ := Text.of_mem_occurrences ho
      refine ⟨value, htold, _, ?_, _, ho, hstop, ?_, hmatch⟩
      · rw [hsplit]
        exact List.mem_append_right _ List.mem_cons_self
      · rw [hsplit]
        exact slice_tagLine hstop

end Findings

/-- The highlights of a note for a tree of known kinds that is not too tall, or for no tree, are
exact, whatever the rules. -/
theorem explain?_exact (rules : Rules) (note : Note) (root : Option Tree)
    (hroot : ∀ t ∈ root, t.Known ∧ t.height ≤ Tree.heightLimit) :
    ∃ hs, explain? rules note root = .ok hs ∧ Exact rules note root hs := by
  cases root with
  | none =>
    refine ⟨[], rfl, collects_nil.exact fun f => ?_⟩
    refine iff_of_false List.not_mem_nil ?_
    rintro ⟨_, _, ⟨⟨_, ⟨⟩, _⟩, _⟩, _⟩
  | some t =>
    obtain ⟨hknown, hheight⟩ := hroot t rfl
    have hexact := (collects_explain t).exact fun f => @mem_findings_iff_told rules note f t
    refine ⟨explain rules note (some t), ?_, hexact⟩
    simp only [explain?, Tree.walk?, Tree.obstacle?_eq_none hknown hheight]

/-- A word in the title, in the body and in the second tag, and a tag that must be missing. -/
theorem explain?_exact_release :
    let note : Note := ⟨"n1".toList, "Release plan".toList, "The release is on Monday.".toList,
      ["work".toList, "release".toList], none, none⟩
    let tree : Tree :=
      .all [.leaf .anywhere "release".toList, .negation (.leaf .tag "draft".toList)]
    let rules : Rules := ⟨.ignored, 15, true⟩
    let hs : List Highlight := [⟨.title, "Release plan".toList, [⟨0, 7⟩]⟩,
      ⟨.body, "The release is...".toList, [⟨4, 11⟩]⟩, ⟨.tag, "work, release".toList, [⟨6, 13⟩]⟩]
    (∀ t ∈ some tree, t.Known ∧ t.height ≤ Tree.heightLimit) ∧
      explain? rules note (some tree) = .ok hs ∧ Exact rules note (some tree) hs := by
  intro note tree rules hs
  have hroot : ∀ t ∈ some tree, t.Known ∧ t.height ≤ Tree.heightLimit := by
    rintro _ ⟨⟩
    exact ⟨⟨trivial, trivial, trivial⟩, by decide⟩
  have hhs : explain? rules note (some tree) = .ok hs := by decide +kernel
  obtain ⟨hs', hexplain, hexact⟩ := explain?_exact rules note (some tree) hroot
  obtain rfl := Except.ok.inj (hhs.symm.trans hexplain)
  exact ⟨hroot, hhs, hexact⟩

end Highlight

end NoteQuery

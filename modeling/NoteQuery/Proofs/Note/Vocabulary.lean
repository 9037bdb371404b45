import Mathlib.Data.Char
import Mathlib.Data.List.Lex
import Mathlib.Data.Prod.Lex
import NoteQuery.Note.Snapshot

/-!
# The order of tags

Texts are compared as lists of characters are, and tags by `Vocabulary.key`: their folding and, where
two foldings agree, the tags themselves. So tags are linearly ordered, two different tags never stand
on one level, and there is one vocabulary for a set of tags (`Vocabulary.ofTags_congr`) and one for a
corpus (`Vocabulary.Lists.unique`).
-/

set_option autoImplicit false

namespace NoteQuery

/-- The order of texts is that of lists of characters, by code points. -/
theorem Text.before_iff_lt {s t : Text} : before s t = true ↔ s < t := by
  induction s generalizing t with
  | nil => cases t <;> simp [before]
  | cons a s ih =>
    cases t with
    | nil => simp [before]
    | cons b t =>
      have hchar : a.toNat < b.toNat ↔ a < b := by
        rw [Char.lt_def, UInt32.lt_iff_toNat_lt]
        rfl
      simp only [before, List.cons_lt_cons_iff, Bool.or_eq_true, decide_eq_true_eq,
        Bool.and_eq_true, beq_iff_eq, ih, hchar]

namespace Vocabulary

/-- What a tag is sorted by: its folding first, then the tag itself. -/
def key (tag : Text) : Text ×ₗ Text :=
  toLex (Text.fold tag, tag)

theorem before_iff {s t : Text} : before s t = true ↔ key s < key t := by
  unfold before key
  simp only [Bool.or_eq_true, Bool.and_eq_true, beq_iff_eq, Text.before_iff_lt,
    Prod.Lex.toLex_lt_toLex]

/-- Tags with one folding are still told apart. -/
theorem key_injective {s t : Text} (h : key s = key t) : s = t :=
  congrArg (fun k => (ofLex k).2) h

theorem not_before_self (t : Text) : ¬ before t t = true := by
  rw [before_iff]
  exact lt_irrefl _

theorem before_trans (s t u : Text) (hst : before s t = true) (htu : before t u = true) :
    before s u = true := by
  rw [before_iff] at hst htu ⊢
  exact lt_trans hst htu

theorem before_total (s t : Text) : before s t = true ∨ s = t ∨ before t s = true := by
  rw [before_iff, before_iff]
  exact (lt_trichotomy (key s) (key t)).imp_right (Or.imp_left key_injective)

variable {tags others : List Text}

/-! ## Vocabularies -/

theorem mem_ofTags {tag : Text} : tag ∈ ofTags tags ↔ tag ∈ tags :=
  mem_ascending

/-- A vocabulary is strictly increasing. -/
theorem pairwise_ofTags (tags : List Text) :
    (ofTags tags).Pairwise fun s t => before s t = true :=
  pairwise_ascending before_trans fun s _ t _ => before_total s t

/-- Neither the order of the tags nor how often each is given matters. -/
theorem ofTags_congr (h : ∀ tag, tag ∈ tags ↔ tag ∈ others) : ofTags tags = ofTags others := by
  refine eq_of_pairwise_of_mem_iff not_before_self before_trans (pairwise_ofTags tags)
    (pairwise_ofTags others) fun tag => ?_
  rw [mem_ofTags, mem_ofTags, h]

/-- Picking tags and putting them in order can be done in either order. -/
theorem ofTags_filter (p : Text → Bool) (tags : List Text) :
    ofTags (tags.filter p) = (ofTags tags).filter p := by
  refine eq_of_pairwise_of_mem_iff not_before_self before_trans (pairwise_ofTags _)
    ((pairwise_ofTags tags).filter p) fun tag => ?_
  rw [mem_ofTags, List.mem_filter, List.mem_filter, mem_ofTags]

/-- A vocabulary is the vocabulary of its own tags. -/
theorem ofTags_of_increasing (h : tags.Pairwise fun s t => key s < key t) : ofTags tags = tags :=
  eq_of_pairwise_of_mem_iff not_before_self before_trans (pairwise_ofTags tags)
    (h.imp before_iff.2) fun _ => mem_ofTags

/-! ## The vocabulary of notes -/

/-- Whether a vocabulary is that of some notes. -/
structure Lists (vocabulary : List Text) (notes : List Note) : Prop where
  /-- It has the tags of the notes and no others. -/
  mem_iff : ∀ tag, tag ∈ vocabulary ↔ ∃ note ∈ notes, tag ∈ note.tags
  nodup : vocabulary.Nodup
  /-- Tags stand in the order of their foldings, and those with one folding in their own. -/
  increasing : vocabulary.Pairwise fun s t => key s < key t

/-- Notes have one vocabulary, in whatever order and however often they are given. -/
theorem Lists.unique {notes notes' : List Note} (h : Lists tags notes) (h' : Lists others notes')
    (hsame : ∀ note, note ∈ notes ↔ note ∈ notes') : tags = others := by
  refine eq_of_pairwise_of_mem_iff not_before_self before_trans (h.increasing.imp before_iff.2)
    (h'.increasing.imp before_iff.2) fun tag => ?_
  rw [h.mem_iff, h'.mem_iff]
  exact exists_congr fun note => and_congr_left fun _ => hsame note

end Vocabulary

theorem Snapshot.lists_build (notes : List Note) (version : Int) :
    Vocabulary.Lists (build notes version).vocabulary notes where
  mem_iff tag := by
    unfold build
    rw [Vocabulary.mem_ofTags, List.mem_flatMap]
  nodup := by
    refine (Vocabulary.pairwise_ofTags _).imp ?_
    rintro s t hst rfl
    exact Vocabulary.not_before_self s hst
  increasing := (Vocabulary.pairwise_ofTags _).imp Vocabulary.before_iff.1

end NoteQuery

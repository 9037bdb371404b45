import Mathlib.Data.Set.Basic
import NoteQuery.Proofs.Engine.Answers
import NoteQuery.Proofs.Query.Composition

/-!
# Searching for queries put together

A search whose limit covers the corpus tells the ids in the corpus for which the tree of the query
holds (`Engine.mem_ids`). An OR between two queries holds where one of them does, an AND where both
do, and a NOT where the query does not, so that the ids of the whole are made from the ids of the
parts: `Engine.ids_compose`.
-/

set_option autoImplicit false

namespace NoteQuery

/-! ## What trees put together mean -/

namespace Tree

variable (leaf : Field → Text → Bool)

theorem holds_anyOf (as : List Tree) : (anyOf as).holds leaf = anyHolds leaf as := by
  match as with
  | [] => rfl
  | [a] => exact (Bool.or_false (a.holds leaf)).symm
  | a :: b :: as => rfl

theorem anyHolds_append (as bs : List Tree) :
    anyHolds leaf (as ++ bs) = (anyHolds leaf as || anyHolds leaf bs) := by
  induction as with
  | nil => rfl
  | cons a as ih => rw [List.cons_append, anyHolds, ih, anyHolds, Bool.or_assoc]

end Tree

/-! ## Ids -/

namespace Engine

variable {q q₁ q₂ : Text} {t t₁ t₂ : Tree}

/-- The ids of the results of a search that nobody cancels, however long it takes. -/
def ids (e : Engine) (options : Options) (query : Text) : Set Text :=
  {id | ∃ elapsed, ∃ r ∈ (e.search query options none).results elapsed, r.noteId = id}

def corpusIds (e : Engine) : Set Text :=
  {id | id ∈ e.snapshot.notes.map (·.id)}

variable {e : Engine} {options : Options}

/-- A search whose limit covers the corpus tells the ids for which the tree holds. -/
theorem mem_ids (hmax : (e.snapshot.notes.length : Int) ≤ options.maxResults)
    (h : Parsed.ofText q = .query t) {id : Text} :
    id ∈ e.ids options q ↔ id ∈ e.corpusIds ∧
      t.holdsFor e.snapshot.notes (.ofSensitive options.caseSensitive) id = true := by
  have hlength : ((t.selects e.snapshot.notes (.ofSensitive options.caseSensitive)).length : Int) ≤
      options.maxResults := by
    have hselects := @Tree.length_selects_le e.snapshot.notes
      (.ofSensitive options.caseSensitive) t
    omega
  have hids : ∀ elapsed, ((e.search q options none).results elapsed).map (·.noteId) =
      (t.selects e.snapshot.notes (.ofSensitive options.caseSensitive)).map (·.id) := by
    intro elapsed
    rw [e.results_of_query options elapsed h]
    simp only [Answer.results, answer, Completion.upTo_of_length_le hlength, List.map_map]
    rfl
  show _ ↔ id ∈ e.snapshot.notes.map (·.id) ∧ _
  rw [← Tree.mem_ids_selects]
  constructor
  · rintro ⟨elapsed, r, hr, rfl⟩
    rw [← hids elapsed]
    exact List.mem_map.2 ⟨r, hr, rfl⟩
  · intro hid
    rw [← hids 0] at hid
    exact ⟨0, List.mem_map.1 hid⟩

theorem ids_or (hmax : (e.snapshot.notes.length : Int) ≤ options.maxResults)
    (h₁ : Parsed.ofText q₁ = .query t₁) (h₂ : Parsed.ofText q₂ = .query t₂) :
    e.ids options (Text.orQueries q₁ q₂) = e.ids options q₁ ∪ e.ids options q₂ := by
  ext id
  have hmeaning : ∀ leaf, (Tree.anyOf (t₁.alternatives ++ t₂.alternatives)).holds leaf =
      (t₁.holds leaf || t₂.holds leaf) := by
    intro leaf
    rw [Tree.holds_anyOf, Tree.anyHolds_append, ← Tree.holds_anyOf, ← Tree.holds_anyOf,
      Parsed.anyOf_alternatives h₁, Parsed.anyOf_alternatives h₂]
  rw [Set.mem_union, mem_ids hmax (Parsed.ofText_or h₁ h₂), mem_ids hmax h₁, mem_ids hmax h₂]
  unfold Tree.holdsFor
  rw [hmeaning, Bool.or_eq_true, and_or_left]

theorem ids_and (hmax : (e.snapshot.notes.length : Int) ≤ options.maxResults)
    (h₁ : Parsed.ofText q₁ = .query t₁) (h₂ : Parsed.ofText q₂ = .query t₂)
    (h : Parsed.ofText (Text.andGroups q₁ q₂) = .query (.all [.group t₁, .group t₂])) :
    e.ids options (Text.andGroups q₁ q₂) = e.ids options q₁ ∩ e.ids options q₂ := by
  ext id
  have hmeaning : ∀ leaf, (Tree.all [.group t₁, .group t₂]).holds leaf =
      (t₁.holds leaf && t₂.holds leaf) := by
    intro leaf
    simp only [Tree.holds, Tree.allHold, Bool.and_true]
  rw [Set.mem_inter_iff, mem_ids hmax h, mem_ids hmax h₁, mem_ids hmax h₂]
  unfold Tree.holdsFor
  rw [hmeaning, Bool.and_eq_true, ← and_and_left]

theorem ids_not (hmax : (e.snapshot.notes.length : Int) ≤ options.maxResults)
    (h₁ : Parsed.ofText q = .query t)
    (h : Parsed.ofText (Text.notGroup q) = .query (.negation (.group t))) :
    e.ids options (Text.notGroup q) = e.corpusIds \ e.ids options q := by
  ext id
  rw [Set.mem_sdiff, mem_ids hmax h, mem_ids hmax h₁]
  unfold Tree.holdsFor
  simp only [Tree.holds, Bool.not_eq_true', not_and, Bool.not_eq_true]
  exact and_congr_right fun hid => ⟨fun hnot _ => hnot, fun hnot => hnot hid⟩

/-- An AND between two queries in groups is valid as long as both leave room for a group. -/
theorem and_groups_compose (hmax : (e.snapshot.notes.length : Int) ≤ options.maxResults)
    (h₁ : Parsed.ofText q₁ = .query t₁) (h₂ : Parsed.ofText q₂ = .query t₂) :
    ((Parsed.ofText (Text.andGroups q₁ q₂)).isValid = true ↔
        t₁.nesting ≤ 99 ∧ t₂.nesting ≤ 99) ∧
      (t₁.nesting ≤ 99 ∧ t₂.nesting ≤ 99 →
        e.ids options (Text.andGroups q₁ q₂) = e.ids options q₁ ∩ e.ids options q₂) ∧
      (¬ (t₁.nesting ≤ 99 ∧ t₂.nesting ≤ 99) →
        ∃ error, Parsed.ofText (Text.andGroups q₁ q₂) = .rejected error ∧
          error.text = "Query nested too deeply".toList) := by
  have hlimit : Grammar.maxNesting = 100 := rfl
  rcases Parsed.ofText_and_groups h₁ h₂ with ⟨hroom, hquery⟩ | ⟨hdeep, p, hrejected⟩
  · have hle : t₁.nesting ≤ 99 ∧ t₂.nesting ≤ 99 := by omega
    refine ⟨?_, fun _ => ids_and hmax h₁ h₂ hquery, fun hdeep => absurd hle hdeep⟩
    rw [hquery]
    exact iff_of_true rfl hle
  · have hnot : ¬ (t₁.nesting ≤ 99 ∧ t₂.nesting ≤ 99) := by omega
    refine ⟨?_, fun hle => absurd hle hnot, fun _ => ⟨_, hrejected, rfl⟩⟩
    rw [hrejected]
    exact iff_of_false Bool.false_ne_true hnot

/-- A NOT in front of a query in a group is valid as long as the query leaves room for both. -/
theorem not_group_composes (hmax : (e.snapshot.notes.length : Int) ≤ options.maxResults)
    (h : Parsed.ofText q = .query t) :
    ((Parsed.ofText (Text.notGroup q)).isValid = true ↔ t.nesting ≤ 98) ∧
      (t.nesting ≤ 98 → e.ids options (Text.notGroup q) = e.corpusIds \ e.ids options q) ∧
      (¬ t.nesting ≤ 98 →
        ∃ error, Parsed.ofText (Text.notGroup q) = .rejected error ∧
          error.text = "Query nested too deeply".toList) := by
  have hlimit : Grammar.maxNesting = 100 := rfl
  rcases Parsed.ofText_not_group h with ⟨hroom, hquery⟩ | ⟨hdeep, p, hrejected⟩
  · have hle : t.nesting ≤ 98 := by omega
    refine ⟨?_, fun _ => ids_not hmax h hquery, fun hdeep => absurd hle hdeep⟩
    rw [hquery]
    exact iff_of_true rfl hle
  · have hnot : ¬ t.nesting ≤ 98 := by omega
    refine ⟨?_, fun hle => absurd hle hnot, fun _ => ⟨_, hrejected, rfl⟩⟩
    rw [hrejected]
    exact iff_of_false Bool.false_ne_true hnot

/-- Queries compose. An OR between two queries is always a query, for the notes of either; an AND
between two queries in groups is one for the notes that they share, and a NOT in front of a group
one for all other notes, as long as no more than 100 groups and negations are open at a time.
Otherwise the error is that the query is nested too deeply. -/
theorem ids_compose (e : Engine) (options : Options)
    (hmax : (e.snapshot.notes.length : Int) ≤ options.maxResults)
    (h₁ : Parsed.ofText q₁ = .query t₁) (h₂ : Parsed.ofText q₂ = .query t₂) :
    ((Parsed.ofText (Text.orQueries q₁ q₂)).isValid = true ∧
      e.ids options (Text.orQueries q₁ q₂) = e.ids options q₁ ∪ e.ids options q₂) ∧
    (((Parsed.ofText (Text.andGroups q₁ q₂)).isValid = true ↔
        t₁.nesting ≤ 99 ∧ t₂.nesting ≤ 99) ∧
      (t₁.nesting ≤ 99 ∧ t₂.nesting ≤ 99 →
        e.ids options (Text.andGroups q₁ q₂) = e.ids options q₁ ∩ e.ids options q₂) ∧
      (¬ (t₁.nesting ≤ 99 ∧ t₂.nesting ≤ 99) →
        ∃ error, Parsed.ofText (Text.andGroups q₁ q₂) = .rejected error ∧
          error.text = "Query nested too deeply".toList)) ∧
    (((Parsed.ofText (Text.notGroup q₁)).isValid = true ↔ t₁.nesting ≤ 98) ∧
      (t₁.nesting ≤ 98 → e.ids options (Text.notGroup q₁) = e.corpusIds \ e.ids options q₁) ∧
      (¬ t₁.nesting ≤ 98 →
        ∃ error, Parsed.ofText (Text.notGroup q₁) = .rejected error ∧
          error.text = "Query nested too deeply".toList)) := by
  refine ⟨⟨?_, ids_or hmax h₁ h₂⟩, and_groups_compose hmax h₁ h₂, not_group_composes hmax h₁⟩
  rw [Parsed.ofText_or h₁ h₂]
  rfl

/-- Two notes share an id: the title of the first is what one query asks for, the tag of the second
what the other does. Each query finds the id, and so does their conjunction, though neither note
alone is both. -/
theorem ids_compose_shared_id :
    let notes : List Note := [⟨['1'], "Plan".toList, [], [], none, none⟩,
      ⟨['2'], "Plan".toList, [], [], none, none⟩, ⟨['1'], [], [], ["x".toList], none, none⟩]
    let e := (create ⟨50, false, 100, 10, "default".toList, .info, true⟩ none).publish notes
    e.ids ⟨3, true, false⟩ (Text.andGroups "plan".toList "tag:x".toList) =
        e.ids ⟨3, true, false⟩ "plan".toList ∩ e.ids ⟨3, true, false⟩ "tag:x".toList ∧
      ['1'] ∈ e.ids ⟨3, true, false⟩ (Text.andGroups "plan".toList "tag:x".toList) := by
  intro notes e
  have hplan : Parsed.ofText "plan".toList = .query (.leaf .anywhere "plan".toList) := by
    decide +kernel
  have htag : Parsed.ofText "tag:x".toList = .query (.leaf .tag "x".toList) := by
    decide +kernel
  have hand := (ids_compose e ⟨3, true, false⟩ (by decide) hplan htag).2.1.2.1 ⟨by decide, by decide⟩
  refine ⟨hand, ?_⟩
  rw [hand]
  constructor
  · refine ⟨0, ?_⟩
    decide +kernel
  · refine ⟨0, ?_⟩
    decide +kernel

end Engine

end NoteQuery

import Mathlib.Data.List.Forall2
import NoteQuery.Intake.Record

/-!
# How notes are refused

Notes are taken in one by one, and the first offer that is not taken refuses them all. A check of
a note tells problems, or breaks off because something could not be looked into. Of a note that
comes as JSON the tags alone can make it break off, and `Intake.note_breaks_iff` says which tags
do; so `Intake.notes_broken_iff` says of which lists the intake breaks off.
-/

set_option autoImplicit false

namespace NoteQuery

namespace Intake

/-! ## Notes that are offered -/

/-- Notes are taken in one by one, in the order in which they are offered. -/
theorem notes_eq_ok_iff {offers : List Offer} {ns : List Note} :
    notes offers = .ok ns ↔ List.Forall₂ (fun o n => o.taken = .ok n) offers ns := by
  induction offers generalizing ns with
  | nil =>
    rw [List.forall₂_nil_left_iff, notes, Except.ok.injEq]
    exact eq_comm
  | cons o os ih =>
    rw [List.forall₂_cons_left_iff, notes]
    cases htaken : o.taken with
    | error r =>
      constructor
      · intro h
        cases h
      · rintro ⟨n, ns, hn, -⟩
        cases hn
    | ok n =>
      cases hrest : notes os with
      | error r =>
        constructor
        · intro h
          cases h
        · rintro ⟨m, ms, -, hms, -⟩
          have hnotes := ih.2 hms
          rw [hrest] at hnotes
          cases hnotes
      | ok ms =>
        constructor
        · intro h
          cases h
          exact ⟨n, ms, rfl, ih.1 hrest, rfl⟩
        · rintro ⟨m, ms', hm, hms, rfl⟩
          cases hm
          have hnotes := ih.2 hms
          rw [hrest] at hnotes
          cases hnotes
          rfl

/-- The first offer that is not taken says why all are refused. -/
theorem notes_eq_error_iff {offers : List Offer} {r : Refusal} :
    notes offers = .error r ↔
      ∃ before o after, offers = before ++ o :: after ∧
        (∀ b ∈ before, ∃ n, b.taken = .ok n) ∧ o.taken = .error r := by
  constructor
  · intro h
    induction offers with
    | nil => cases h
    | cons o os ih =>
      rw [notes] at h
      cases htaken : o.taken with
      | error r' =>
        rw [htaken] at h
        obtain rfl := Except.error.inj h
        exact ⟨[], o, os, rfl, by simp, htaken⟩
      | ok n =>
        rw [htaken] at h
        cases hrest : notes os with
        | ok ns =>
          rw [hrest] at h
          cases h
        | error r' =>
          rw [hrest] at h
          obtain rfl := Except.error.inj h
          obtain ⟨before, o', after, rfl, hbefore, ho'⟩ := ih hrest
          exact ⟨o :: before, o', after, rfl, List.forall_mem_cons.2 ⟨⟨n, htaken⟩, hbefore⟩, ho'⟩
  · rintro ⟨before, o, after, rfl, hbefore, ho⟩
    induction before with
    | nil => rw [List.nil_append, notes, ho]
    | cons b before ih =>
      obtain ⟨⟨n, hn⟩, hbefore⟩ := List.forall_mem_cons.1 hbefore
      rw [List.cons_append, notes, hn, ih hbefore]

/-- One offer that is not taken is enough to refuse them all, whatever the error. -/
theorem notes_refused {offers : List Offer} {o : Offer} {r : Refusal} (ho : o ∈ offers)
    (hr : o.taken = .error r) : ∃ refusal, notes offers = .error refusal := by
  cases hnotes : notes offers with
  | error refusal => exact ⟨refusal, rfl⟩
  | ok ns =>
    have htaken := notes_eq_ok_iff.1 hnotes
    obtain ⟨i, hi, rfl⟩ := List.getElem_of_mem ho
    have hlength : i < ns.length := htaken.length_eq ▸ hi
    have hok := htaken.get hi hlength
    rw [List.get_eq_getElem, hr] at hok
    cases hok

/-! ## Checks that break off -/

namespace Check

variable {α β : Type}

def Breaks (c : Check α) : Prop :=
  ∃ b, c = .broken b

@[simp]
theorem not_breaks_accepted (a : α) : ¬(Check.accepted a).Breaks := by
  rintro ⟨b, ⟨⟩⟩

@[simp]
theorem not_breaks_flaw (f : Flaw) : ¬(flaw f : Check α).Breaks := by
  rintro ⟨b, ⟨⟩⟩

@[simp]
theorem breaks_broken (b : Breakage) : (Check.broken b : Check α).Breaks :=
  ⟨b, rfl⟩

@[simp]
theorem breaks_map (f : α → β) (c : Check α) : (c.map f).Breaks ↔ c.Breaks := by
  cases c <;> simp [map, Breaks]

@[simp]
theorem breaks_both (c : Check α) (d : Check β) :
    (both c d).Breaks ↔ c.Breaks ∨ d.Breaks := by
  cases c <;> cases d <;> simp [both, Breaks]

@[simp]
theorem breaks_functorMap (f : α → β) (c : Check α) : (f <$> c).Breaks ↔ c.Breaks :=
  breaks_map f c

@[simp]
theorem breaks_seq (c : Check (α → β)) (d : Check α) :
    (c <*> d).Breaks ↔ c.Breaks ∨ d.Breaks := by
  rw [← breaks_both]
  exact breaks_map _ (both c d)

@[simp]
theorem breaks_under (place : Place) (c : Check α) : (c.under place).Breaks ↔ c.Breaks := by
  cases c <;> simp [under, Breaks]

@[simp]
theorem breaks_andThen (c : Check α) (f : α → Check β) :
    (c.andThen f).Breaks ↔ c.Breaks ∨ ∃ a, c = .accepted a ∧ (f a).Breaks := by
  cases c <;> simp [andThen, Breaks]

theorem result_ok_iff (title : String) (c : Check α) :
    (∃ a, c.result title = .ok a) ↔ ∃ a, c = .accepted a := by
  cases c <;> simp [result]

theorem result_broken_iff (title : String) (c : Check α) :
    (∃ b, c.result title = .error (.broken b)) ↔ c.Breaks := by
  cases c <;> simp [result, Breaks]

theorem error_of_result {title : String} {c : Check α} {r : Refusal}
    (h : c.result title = .error r) :
    (∃ title problems, r = .invalid title problems) ∨ ∃ b, r = .broken b := by
  cases c with
  | accepted a => cases h
  | refused problems => exact .inl ⟨_, problems, (Except.error.inj h).symm⟩
  | broken b => exact .inr ⟨b, (Except.error.inj h).symm⟩

theorem not_breaks_entries {check : Datum → Check α} (h : ∀ d, ¬(check d).Breaks) (index : Nat)
    (ds : List Datum) : ¬(entries check index ds).Breaks := by
  induction ds generalizing index with
  | nil => exact not_breaks_accepted _
  | cons d ds ih =>
    rw [entries]
    simp [h d, ih]

end Check

/-! ## Parts of a note -/

theorem not_breaks_ofBytes {α : Type} {check : Text → Check α} (h : ∀ t, ¬(check t).Breaks)
    (unreadable : Flaw) (bytes : List Nat) : ¬(ofBytes check unreadable bytes).Breaks := by
  unfold ofBytes
  split
  · exact h _
  · exact Check.not_breaks_flaw _

theorem not_breaks_text (d : Datum) : ¬(text d).Breaks := by
  cases d <;> simp [text, not_breaks_ofBytes]

theorem not_breaks_nonEmptyText (d : Datum) : ¬(nonEmptyText d).Breaks := by
  unfold nonEmptyText
  rw [Check.breaks_andThen, not_or]
  refine ⟨not_breaks_text d, ?_⟩
  rintro ⟨t, -, ht⟩
  split at ht <;> simp at ht

theorem not_breaks_momentOfText (t : Text) : ¬(momentOfText t).Breaks := by
  unfold momentOfText
  split
  · exact Check.not_breaks_accepted _
  · split
    · exact Check.not_breaks_accepted _
    · exact Check.not_breaks_flaw _

theorem not_breaks_moment (d : Datum) : ¬(moment d).Breaks := by
  unfold moment
  split
  · exact not_breaks_momentOfText _
  · exact not_breaks_ofBytes not_breaks_momentOfText _ _
  · split
    · exact Check.not_breaks_accepted _
    · exact Check.not_breaks_flaw _
  · split
    · exact Check.not_breaks_accepted _
    · exact Check.not_breaks_flaw _
  · exact Check.not_breaks_flaw _

theorem not_breaks_orNull {α : Type} {check : Datum → Check α} (h : ∀ d, ¬(check d).Breaks)
    (d : Datum) : ¬(orNull check d).Breaks := by
  cases d <;> simp [orNull, h]

theorem not_breaks_required {α : Type} {check : Datum → Check α} (h : ∀ d, ¬(check d).Breaks)
    (name : String) (ms : List (Text × Datum)) : ¬(required name check ms).Breaks := by
  unfold required
  cases getMember? name.toList ms <;> simp [h]

/-- A member that may be left out breaks a check off only where it is there. -/
theorem breaks_optional {α : Type} (name : String) (default : α) (check : Datum → Check α)
    (ms : List (Text × Datum)) :
    (optional name default check ms).Breaks ↔
      ∃ d, getMember? name.toList ms = some d ∧ (check d).Breaks := by
  unfold optional
  cases getMember? name.toList ms <;> simp

theorem not_breaks_optional {α : Type} {check : Datum → Check α} (h : ∀ d, ¬(check d).Breaks)
    (name : String) (default : α) (ms : List (Text × Datum)) :
    ¬(optional name default check ms).Breaks := by
  rw [breaks_optional]
  rintro ⟨d, -, hd⟩
  exact h d hd

theorem not_breaks_momentNamed (first second : String) (ms : List (Text × Datum)) :
    ¬(momentNamed first second ms).Breaks := by
  unfold momentNamed
  cases getMember? first.toList ms with
  | some d => exact not_breaks_optional (not_breaks_orNull not_breaks_moment) first none ms
  | none => exact not_breaks_optional (not_breaks_orNull not_breaks_moment) second none ms

/-- The tags alone can make the check of a note break off. -/
theorem breaks_note_record (ms : List (Text × Datum)) :
    (note (.record ms)).Breaks ↔
      ∃ d, getMember? "tags".toList ms = some d ∧ (tags d).Breaks := by
  simp only [note, members, Check.andThen, Check.breaks_seq, Check.breaks_functorMap,
    not_breaks_required not_breaks_nonEmptyText, not_breaks_optional not_breaks_text,
    not_breaks_momentNamed, breaks_optional, false_or, or_false]

end Intake

/-! ## Tags that come as JSON -/

namespace Json

/-- Whether a value is an array or an object. -/
def isComposite : Json → Bool
  | .arr _ | .obj _ => true
  | _ => false

/-- Whether a value cannot be looked into where tags are asked for: it has no entries, or it is an
array with an entry that cannot be told from others. -/
def isIllegible : Json → Bool
  | .bool _ | .int _ | .float _ => true
  | .arr elements => elements.any isComposite
  | .null | .str _ | .obj _ => false

end Json

namespace Datum

theorem ofElements_eq_map (js : List Json) : ofElements js = js.map ofJson := by
  induction js with
  | nil => rfl
  | cons j js ih => rw [ofElements, ih, List.map_cons]

theorem getMember?_ofMembers (name : Text) (ms : List (Text × Json)) :
    getMember? name (ofMembers ms) = (getMember? name ms).map ofJson := by
  induction ms with
  | nil => rfl
  | cons m ms ih =>
    obtain ⟨other, j⟩ := m
    rw [ofMembers, getMember?, getMember?, ih]
    split <;> rfl

end Datum

namespace Intake

theorem isSome_unhashable?_ofJson (j : Json) :
    (unhashable? (Datum.ofJson j)).isSome = j.isComposite := by
  cases j <;> simp [Datum.ofJson, unhashable?, Json.isComposite]

/-- Where the entries of tags can be told, one that cannot be told from others breaks the check
off. -/
theorem breaks_tags_of_entries {d : Datum} {es : List Datum} (h : tagEntries d = .accepted es) :
    (tags d).Breaks ↔ ∃ e ∈ es, (unhashable? e).isSome = true := by
  unfold tags
  rw [h, Check.andThen]
  cases hfind : es.findSome? unhashable? with
  | some b =>
    simp only [Check.breaks_broken, true_iff]
    obtain ⟨e, he, hb⟩ := List.exists_of_findSome?_eq_some hfind
    exact ⟨e, he, by rw [hb]; rfl⟩
  | none =>
    rw [List.findSome?_eq_none_iff] at hfind
    constructor
    · intro hbreaks
      exact absurd hbreaks (Check.not_breaks_entries not_breaks_text 0 _)
    · rintro ⟨e, he, hsome⟩
      rw [hfind e he] at hsome
      exact absurd hsome (by simp)

theorem breaks_tags_iff (j : Json) :
    (tags (Datum.ofJson j)).Breaks ↔ j.isIllegible = true := by
  cases j with
  | null => rw [breaks_tags_of_entries rfl]; simp [Json.isIllegible]
  | str t =>
    rw [breaks_tags_of_entries rfl]
    simp [Json.isIllegible, unhashable?]
  | bool b => simp [tags, tagEntries, Datum.ofJson, Check.andThen, Json.isIllegible]
  | int i => simp [tags, tagEntries, Datum.ofJson, Check.andThen, Json.isIllegible]
  | float x => simp [tags, tagEntries, Datum.ofJson, Check.andThen, Json.isIllegible]
  | arr es =>
    rw [breaks_tags_of_entries rfl, Datum.ofElements_eq_map, Json.isIllegible, List.any_eq_true]
    simp only [List.mem_map, exists_exists_and_eq_and, isSome_unhashable?_ofJson]
  | obj ms =>
    rw [breaks_tags_of_entries rfl]
    simp [Json.isIllegible, unhashable?]

/-! ## Notes that come as JSON -/

def offer (j : Json) : Offer :=
  .datum (.ofJson j)

/-- Whether a JSON value is a note. -/
def IsNote (j : Json) : Prop :=
  ∃ n, note (.ofJson j) = .accepted n

/-- Whether tags stand in a JSON value that cannot be looked into. -/
def HasIllegibleTags (j : Json) : Prop :=
  ∃ tags, j.get? "tags" = some tags ∧ tags.isIllegible = true

theorem note_breaks_iff (j : Json) : (note (.ofJson j)).Breaks ↔ HasIllegibleTags j := by
  cases j with
  | obj ms =>
    rw [Datum.ofJson, breaks_note_record, Datum.getMember?_ofMembers]
    simp only [Option.map_eq_some_iff, exists_exists_and_eq_and, breaks_tags_iff]
    rfl
  | _ =>
    show (Check.flaw .notRecord : Check Note).Breaks ↔ _
    simp [HasIllegibleTags, Json.get?]

/-- Whether the first entry of a list that is no note has tags that cannot be looked into. -/
def Stumbles (entries : List Json) : Prop :=
  ∃ before j after, entries = before ++ j :: after ∧ (∀ b ∈ before, IsNote b) ∧ HasIllegibleTags j

theorem offer_taken_eq_ok_iff (j : Json) : (∃ n, (offer j).taken = .ok n) ↔ IsNote j :=
  Check.result_ok_iff "Note" (note (.ofJson j))

theorem offer_taken_broken_iff (j : Json) :
    (∃ b, (offer j).taken = .error (.broken b)) ↔ HasIllegibleTags j := by
  rw [← note_breaks_iff]
  exact Check.result_broken_iff "Note" (note (.ofJson j))

/-- The first entry that is no note says why a list of JSON values is refused. -/
theorem notes_offer_eq_error_iff {entries : List Json} {r : Refusal} :
    notes (entries.map offer) = .error r ↔
      ∃ before j after, entries = before ++ j :: after ∧ (∀ b ∈ before, IsNote b) ∧
        (offer j).taken = .error r := by
  rw [notes_eq_error_iff]
  constructor
  · rintro ⟨before, o, after, hsplit, hbefore, ho⟩
    obtain ⟨before, rest, rfl, rfl, hrest⟩ := List.map_eq_append_iff.1 hsplit
    obtain ⟨j, after, rfl, rfl, rfl⟩ := List.map_eq_cons_iff.1 hrest
    refine ⟨before, j, after, rfl, ?_, ho⟩
    intro b hb
    exact (offer_taken_eq_ok_iff b).1 (hbefore _ (List.mem_map_of_mem hb))
  · rintro ⟨before, j, after, rfl, hbefore, hj⟩
    refine ⟨before.map offer, offer j, after.map offer, by simp, ?_, hj⟩
    intro o ho
    obtain ⟨b, hb, rfl⟩ := List.mem_map.1 ho
    exact (offer_taken_eq_ok_iff b).2 (hbefore b hb)

/-- A list of JSON values is taken in, or an entry has problems, or the intake breaks off. -/
theorem notes_cases (entries : List Json) :
    (∃ ns, notes (entries.map offer) = .ok ns) ∨
      (∃ title problems, notes (entries.map offer) = .error (.invalid title problems)) ∨
        ∃ b, notes (entries.map offer) = .error (.broken b) := by
  cases hnotes : notes (entries.map offer) with
  | ok ns => exact .inl ⟨ns, rfl⟩
  | error r =>
    obtain ⟨before, j, after, -, -, hj⟩ := notes_offer_eq_error_iff.1 hnotes
    rcases Check.error_of_result hj with ⟨title, problems, rfl⟩ | ⟨b, rfl⟩
    · exact .inr (.inl ⟨title, problems, rfl⟩)
    · exact .inr (.inr ⟨b, rfl⟩)

/-- The intake of a list of JSON values breaks off exactly at illegible tags that come before
every other flaw. -/
theorem notes_broken_iff (entries : List Json) :
    (∃ b, notes (entries.map offer) = .error (.broken b)) ↔ Stumbles entries := by
  simp only [notes_offer_eq_error_iff, Stumbles, ← offer_taken_broken_iff]
  constructor
  · rintro ⟨b, before, j, after, hsplit, hbefore, hj⟩
    exact ⟨before, j, after, hsplit, hbefore, b, hj⟩
  · rintro ⟨before, j, after, hsplit, hbefore, b, hj⟩
    exact ⟨b, before, j, after, hsplit, hbefore, hj⟩

/-- All of a list of JSON values are taken in exactly if each of them is a note. -/
theorem notes_taken_iff (entries : List Json) :
    (∃ ns, notes (entries.map offer) = .ok ns) ↔ ∀ j ∈ entries, IsNote j := by
  constructor
  · rintro ⟨ns, hns⟩ j hj
    rw [← offer_taken_eq_ok_iff]
    cases htaken : (offer j).taken with
    | ok n => exact ⟨n, rfl⟩
    | error r =>
      obtain ⟨r', hr'⟩ := notes_refused (List.mem_map_of_mem hj) htaken
      rw [hns] at hr'
      cases hr'
  · intro hall
    cases hnotes : notes (entries.map offer) with
    | ok ns => exact ⟨ns, rfl⟩
    | error r =>
      obtain ⟨before, j, after, rfl, -, hj⟩ := notes_offer_eq_error_iff.1 hnotes
      obtain ⟨n, hn⟩ := (offer_taken_eq_ok_iff j).2 (hall j (by simp))
      rw [hn] at hj
      cases hj

end Intake

end NoteQuery

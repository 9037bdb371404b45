import Mathlib.Data.List.Nodup
import NoteQuery.Proofs.Query.Trees
import NoteQuery.Proofs.Search.Checks
import NoteQuery.Search.Meaning

/-!
# What an evaluation answers

Every step of an evaluation comes to one result after a number of checks that depend on nothing
that was done before (`Evaluation.Ends`): an allowance either covers the checks or ends the step at
the first that it does not cover. For a tree the result is the set of those ids in the corpus
for which the tree holds (`Evaluation.returns_ids`), and the first note of each of them makes up the
answer (`Evaluation.notes_evaluate`).
-/

set_option autoImplicit false

namespace NoteQuery

namespace Evaluation

variable {α β : Type}

/-! ## Steps -/

/-- Whether a step comes to a result with a property. -/
def Returns (step : Option Nat → Eval α) (P : α → Prop) : Prop :=
  ∃ result checks warnings, Ends step (.ok result) checks warnings ∧ P result

theorem returns_pure {P : α → Prop} {a : α} (h : P a) : Returns (fun _ => pure a) P :=
  ⟨a, 0, [], .pure a, h⟩

theorem Returns.bind {e : Option Nat → Eval α} {f : Option Nat → α → Eval β} {P : α → Prop}
    {Q : β → Prop} (he : Returns e P)
    (hf : ∀ a, P a → Returns (fun allowance => f allowance a) Q) :
    Returns (fun allowance => e allowance >>= f allowance) Q := by
  obtain ⟨a, k, ws, hfirst, ha⟩ := he
  obtain ⟨b, l, vs, hsecond, hb⟩ := hf a ha
  exact ⟨b, k + l, ws ++ vs, hfirst.bind hsecond, hb⟩

/-- A check or a warning in front of a step changes nothing about what the step returns. -/
theorem Returns.after {first : Option Nat → Eval Unit} {k : Nat} {ws : List Warning}
    {e : Option Nat → Eval α} {P : α → Prop} (hfirst : Ends first (.ok ()) k ws)
    (he : Returns e P) :
    Returns (fun allowance => first allowance >>= fun _ => e allowance) P := by
  obtain ⟨a, l, vs, hsecond, ha⟩ := he
  exact ⟨a, k + l, ws ++ vs, hfirst.bind hsecond, ha⟩

/-! ## Ids -/

/-- The notes' ids for which a condition holds. -/
def Finds (corpus : List Note) (condition : Text → Bool) (found : List Text) : Prop :=
  ∀ id, id ∈ found ↔ id ∈ corpus.map (·.id) ∧ condition id = true

theorem Finds.congr {corpus : List Note} {p q : Text → Bool} {found : List Text}
    (h : Finds corpus p found) (hpq : ∀ id, p id = q id) : Finds corpus q found := by
  intro id
  rw [h id, hpq id]

theorem finds_nil (corpus : List Note) : Finds corpus (fun _ => false) [] := by
  simp [Finds]

variable {corpus : List Note} {mode : CaseMode}

theorem returns_leafIds (field : Field) (value : Text) (notes : List Note) :
    Returns (fun allowance => leafIds ⟨corpus, mode, allowance⟩ field value notes) fun found =>
      ∀ id, id ∈ found ↔
        ∃ note ∈ notes, note.id = id ∧ note.matchesLeaf mode field value = true := by
  induction notes with
  | nil => exact returns_pure (by simp)
  | cons note notes ih =>
    simp only [leafIds]
    refine Returns.after .check (ih.bind fun rest hrest => ?_)
    by_cases hmatches : note.matchesLeaf mode field value = true
    · simp only [if_pos hmatches]
      exact returns_pure fun id => by simp [hrest, hmatches, @eq_comm _ id]
    · simp only [if_neg hmatches]
      exact returns_pure fun id => by simp [hrest, hmatches]

theorem returns_leaf (field : Field) (value : Text) :
    Returns (fun allowance => leafIds ⟨corpus, mode, allowance⟩ field value corpus)
      (Finds corpus fun id => Tree.leafHolds corpus mode id field value) := by
  obtain ⟨found, k, ws, hends, hfound⟩ :=
    @returns_leafIds corpus mode field value corpus
  refine ⟨found, k, ws, hends, fun id => ?_⟩
  rw [hfound id]
  simp only [Tree.leafHolds, List.mem_map, List.any_eq_true, Bool.and_eq_true, beq_iff_eq]
  constructor
  · rintro ⟨note, hnote, hid, hmatches⟩
    exact ⟨⟨note, hnote, hid⟩, note, hnote, hid, hmatches⟩
  · rintro ⟨-, note, hnote, hid, hmatches⟩
    exact ⟨note, hnote, hid, hmatches⟩

/-- Intersecting stops early only where nothing is left to find. -/
theorem returns_narrow {room : Nat} {cs : List Tree} {condition : Text → Bool} {found : List Text}
    (hfound : Finds corpus condition found)
    (hcs : ∀ c ∈ cs, Returns (fun allowance => ids ⟨corpus, mode, allowance⟩ room c)
      (Finds corpus fun id => c.holdsFor corpus mode id)) :
    Returns (fun allowance => narrow ⟨corpus, mode, allowance⟩ room found cs)
      (Finds corpus fun id =>
        condition id && Tree.allHold (Tree.leafHolds corpus mode id) cs) := by
  induction cs generalizing condition found with
  | nil =>
    simp only [narrow]
    exact returns_pure (hfound.congr fun id => by simp [Tree.allHold])
  | cons c cs ih =>
    obtain ⟨hc, hcs⟩ := List.forall_mem_cons.1 hcs
    simp only [narrow]
    cases found with
    | nil =>
      refine returns_pure ?_
      intro id
      have hnone := hfound id
      simp only [List.not_mem_nil, false_iff, not_and, Bool.not_eq_true] at hnone
      simp +contextual [hnone]
    | cons first found =>
      refine hc.bind fun next hnext => ?_
      have hboth : Finds corpus (fun id => condition id && c.holdsFor corpus mode id)
          ((first :: found).filter next.contains) := by
        intro id
        rw [List.mem_filter, hfound id, List.contains_iff_mem, hnext id, Bool.and_eq_true]
        constructor
        · rintro ⟨⟨hid, hcondition⟩, -, hholds⟩
          exact ⟨hid, hcondition, hholds⟩
        · rintro ⟨hid, hcondition, hholds⟩
          exact ⟨⟨hid, hcondition⟩, hid, hholds⟩
      obtain ⟨result, k, ws, hends, hresult⟩ := ih hboth hcs
      refine ⟨result, k, ws, hends, hresult.congr fun id => ?_⟩
      rw [Tree.allHold, ← Bool.and_assoc]
      rfl

theorem returns_widen {room : Nat} {cs : List Tree}
    (hcs : ∀ c ∈ cs, Returns (fun allowance => ids ⟨corpus, mode, allowance⟩ room c)
      (Finds corpus fun id => c.holdsFor corpus mode id)) :
    Returns (fun allowance => widen ⟨corpus, mode, allowance⟩ room cs)
      (Finds corpus fun id => Tree.anyHolds (Tree.leafHolds corpus mode id) cs) := by
  induction cs with
  | nil =>
    simp only [widen]
    exact returns_pure (finds_nil corpus)
  | cons c cs ih =>
    obtain ⟨hc, hcs⟩ := List.forall_mem_cons.1 hcs
    simp only [widen]
    refine hc.bind fun found hfound => (ih hcs).bind fun rest hrest => returns_pure ?_
    intro id
    rw [List.mem_append, hfound id, hrest id, ← and_or_left]
    simp only [Tree.anyHolds, Bool.or_eq_true]
    rfl

/-- A tree finds the ids for which it holds. -/
theorem returns_ids {t : Tree} {room : Nat} (hf : t.Filled) (hh : t.height ≤ room) :
    Returns (fun allowance => ids ⟨corpus, mode, allowance⟩ room t)
      (Finds corpus fun id => t.holdsFor corpus mode id) := by
  induction t generalizing room with
  | leaf field value =>
    obtain ⟨room, rfl⟩ := Tree.exists_room_of_height_le hh
    simp only [ids]
    exact Returns.after .check (returns_leaf field value)
  | all cs ih =>
    obtain ⟨room, rfl⟩ := Tree.exists_room_of_height_le hh
    have hheight := Tree.height_all_le.1 hh
    have hfilled := Tree.filledList_iff.1 hf.2
    obtain ⟨c, cs, rfl⟩ := List.exists_cons_of_ne_nil hf.1
    have hcs := fun d hd => ih d hd (hfilled d hd) (hheight d hd)
    obtain ⟨hc, hcs⟩ := List.forall_mem_cons.1 hcs
    simp only [ids]
    exact Returns.after .check (hc.bind fun first hfirst => returns_narrow hfirst hcs)
  | any cs ih =>
    obtain ⟨room, rfl⟩ := Tree.exists_room_of_height_le hh
    have hheight := Tree.height_any_le.1 hh
    have hfilled := Tree.filledList_iff.1 hf
    have hcs := fun d hd => ih d hd (hfilled d hd) (hheight d hd)
    simp only [ids]
    exact Returns.after .check (returns_widen hcs)
  | negation c ih =>
    obtain ⟨room, rfl⟩ := Tree.exists_room_of_height_le hh
    have hc := ih hf (Tree.height_negation_le.1 hh)
    simp only [ids]
    refine Returns.after .check (hc.bind fun excluded hexcluded => returns_pure ?_)
    intro id
    rw [List.mem_filter, Bool.not_eq_true', ← Bool.not_eq_true, List.contains_iff_mem, hexcluded id]
    simp only [Tree.holdsFor, Tree.holds, Bool.not_eq_true', not_and, Bool.not_eq_true]
    exact and_congr_right fun hid => ⟨fun h => h hid, fun h _ => h⟩
  | group c ih =>
    obtain ⟨room, rfl⟩ := Tree.exists_room_of_height_le hh
    have hc := ih hf (Tree.height_group_le.1 hh)
    simp only [ids]
    exact Returns.after .check hc
  | absent =>
    obtain ⟨room, rfl⟩ := Tree.exists_room_of_height_le hh
    simp only [ids]
    exact Returns.after .check (Returns.after (.warn _) (returns_pure (finds_nil corpus)))
  | unknown kind =>
    obtain ⟨room, rfl⟩ := Tree.exists_room_of_height_le hh
    simp only [ids]
    exact Returns.after .check (Returns.after (.warn _) (returns_pure (finds_nil corpus)))

end Evaluation

/-! ## Notes -/

namespace Note

theorem mem_of_mem_firsts {note : Note} {notes : List Note} (h : note ∈ firsts notes) :
    note ∈ notes := by
  induction notes with
  | nil => exact h
  | cons first notes ih =>
    rcases List.mem_cons.1 h with rfl | h
    · exact List.mem_cons_self
    · exact List.mem_cons_of_mem first (ih (List.mem_filter.1 h).1)

theorem firsts_eq_self {notes : List Note} (h : (notes.map (·.id)).Nodup) :
    firsts notes = notes := by
  induction notes with
  | nil => rfl
  | cons note notes ih =>
    rw [List.map_cons, List.nodup_cons] at h
    have hothers : notes.filter (fun other => !(other.id == note.id)) = notes := by
      refine List.filter_eq_self.2 fun other hother => ?_
      have hne : other.id ≠ note.id := fun heq => h.1 (List.mem_map.2 ⟨other, hother, heq⟩)
      simpa using hne
    rw [firsts, ih h.2, hothers]

theorem mem_ids_firsts {id : Text} {notes : List Note} :
    id ∈ (firsts notes).map (·.id) ↔ id ∈ notes.map (·.id) := by
  induction notes with
  | nil => exact Iff.rfl
  | cons note notes ih =>
    rw [firsts, List.map_cons, List.map_cons, List.mem_cons, List.mem_cons, ← ih]
    refine or_congr_right' fun hne => ?_
    constructor
    · intro h
      obtain ⟨other, hother, hid⟩ := List.mem_map.1 h
      exact List.mem_map.2 ⟨other, (List.mem_filter.1 hother).1, hid⟩
    · intro h
      obtain ⟨other, hother, rfl⟩ := List.mem_map.1 h
      have hkeep : (!(other.id == note.id)) = true := by simpa using hne
      exact List.mem_map.2 ⟨other, List.mem_filter.2 ⟨hother, hkeep⟩, rfl⟩

theorem length_firsts_le (notes : List Note) : (firsts notes).length ≤ notes.length := by
  induction notes with
  | nil => exact Nat.le_refl 0
  | cons note notes ih =>
    have hfilter := List.length_filter_le (fun other => !(other.id == note.id)) (firsts notes)
    rw [firsts, List.length_cons, List.length_cons]
    omega

end Note

namespace Tree

variable {corpus : List Note} {mode : CaseMode}

theorem mem_selects {note : Note} {t : Tree} (h : note ∈ t.selects corpus mode) :
    note ∈ corpus ∧ t.holdsFor corpus mode note.id = true := by
  obtain ⟨hfirst, hholds⟩ := List.mem_filter.1 h
  exact ⟨Note.mem_of_mem_firsts hfirst, hholds⟩

/-- A tree selects a note of each id in the corpus for which it holds. -/
theorem mem_ids_selects {id : Text} (t : Tree) :
    id ∈ (t.selects corpus mode).map (·.id) ↔
      id ∈ corpus.map (·.id) ∧ t.holdsFor corpus mode id = true := by
  rw [← @Note.mem_ids_firsts id corpus]
  unfold selects
  constructor
  · intro h
    obtain ⟨note, hnote, rfl⟩ := List.mem_map.1 h
    obtain ⟨hfirst, hholds⟩ := List.mem_filter.1 hnote
    exact ⟨List.mem_map.2 ⟨note, hfirst, rfl⟩, hholds⟩
  · rintro ⟨h, hholds⟩
    obtain ⟨note, hfirst, rfl⟩ := List.mem_map.1 h
    exact List.mem_map.2 ⟨note, List.mem_filter.2 ⟨hfirst, hholds⟩, rfl⟩

theorem length_selects_le (t : Tree) : (t.selects corpus mode).length ≤ corpus.length := by
  have hfilter := List.length_filter_le (fun note => t.holdsFor corpus mode note.id)
    (Note.firsts corpus)
  have hfirsts := Note.length_firsts_le corpus
  unfold selects
  omega

theorem selects_absent : (absent).selects corpus mode = [] := by
  simp [selects, holdsFor, holds]

/-- Where no id is used twice, a leaf holds for the id of a note exactly if it matches the note. -/
theorem leafHolds_of_nodup (h : (corpus.map (·.id)).Nodup) {note : Note} (hnote : note ∈ corpus) :
    leafHolds corpus mode note.id = fun field value => note.matchesLeaf mode field value := by
  funext field value
  rw [Bool.eq_iff_iff]
  simp only [leafHolds, List.any_eq_true, Bool.and_eq_true, beq_iff_eq]
  constructor
  · rintro ⟨other, hother, hid, hmatches⟩
    obtain rfl := List.inj_on_of_nodup_map h hother hnote hid
    exact hmatches
  · intro hmatches
    exact ⟨note, hnote, rfl, hmatches⟩

theorem selects_of_nodup (h : (corpus.map (·.id)).Nodup) (t : Tree) :
    t.selects corpus mode =
      corpus.filter fun note => t.holds fun field value => note.matchesLeaf mode field value := by
  rw [selects, Note.firsts_eq_self h]
  refine List.filter_congr fun note hnote => ?_
  rw [holdsFor, leafHolds_of_nodup h hnote]

end Tree

namespace Evaluation

variable {corpus : List Note} {mode : CaseMode}

/-- Selecting keeps, of the first notes of all ids, those that were found and not seen before. -/
theorem select_eq_filter (found seen : List Text) (notes : List Note) :
    select found seen notes =
      (Note.firsts notes).filter fun note => found.contains note.id && !seen.contains note.id := by
  induction notes generalizing seen with
  | nil => rfl
  | cons note notes ih =>
    rw [select, Note.firsts, List.filter_cons, List.filter_filter]
    cases hkeep : found.contains note.id && !seen.contains note.id with
    | true =>
      rw [if_pos rfl, if_pos rfl, ih]
      refine congrArg (note :: ·) (List.filter_congr fun other _ => ?_)
      rw [List.contains_cons, Bool.not_or, Bool.and_comm (!(other.id == note.id)), ← Bool.and_assoc]
    | false =>
      rw [if_neg (by simp), if_neg (by simp), ih]
      refine List.filter_congr fun other _ => ?_
      by_cases hid : other.id = note.id
      · rw [hid, hkeep]
        rfl
      · simp [hid]

theorem select_of_finds {t : Tree} {found : List Text}
    (h : Finds corpus (fun id => t.holdsFor corpus mode id) found) :
    select found [] corpus = t.selects corpus mode := by
  rw [select_eq_filter, Tree.selects]
  refine List.filter_congr fun note hnote => ?_
  have hid : note.id ∈ corpus.map (·.id) :=
    List.mem_map.2 ⟨note, Note.mem_of_mem_firsts hnote, rfl⟩
  rw [Bool.eq_iff_iff, List.contains_nil, Bool.not_false, Bool.and_true, List.contains_iff_mem,
    h note.id]
  simp [hid]

/-- What is evaluated to its end answers with the notes that the tree selects. -/
theorem evaluate_of_returns {t : Tree}
    (h : Returns (fun allowance => ids ⟨corpus, mode, allowance⟩ Tree.heightLimit t)
      (Finds corpus fun id => t.holdsFor corpus mode id)) (allowance : Option Nat) :
    (evaluate ⟨corpus, mode, allowance⟩ (some t)).notes? = some (t.selects corpus mode) ∨
      allowance ≠ none ∧ (evaluate ⟨corpus, mode, allowance⟩ (some t)).notes? = none := by
  cases hcorpus : corpus with
  | nil => exact .inl rfl
  | cons note notes =>
    obtain ⟨found, k, ws, hends, hfound⟩ := h
    rw [← hcorpus]
    have hne : corpus.isEmpty ≠ true := by simp [hcorpus]
    simp only [evaluate, if_neg hne]
    by_cases hcovered : ∀ n, allowance = some n → Trace.empty.checks + k ≤ n
    · rw [hends.passes allowance .empty hcovered]
      exact .inl (congrArg some (select_of_finds hfound))
    · simp only [Classical.not_forall, Nat.not_le] at hcovered
      obtain ⟨n, rfl, hlt⟩ := hcovered
      obtain ⟨left, hstop⟩ := hends.stops n .empty (Nat.zero_le n) hlt
      rw [hstop]
      exact .inr ⟨by simp, rfl⟩

/-- An evaluation answers with the first note of each id for which the tree holds, in the order of
the corpus, unless it has an allowance and is cancelled. Where no id is used twice, these are the
notes for which the tree holds, one by one. -/
theorem notes_evaluate (corpus : List Note) (mode : CaseMode) {root : Option Tree}
    (hf : (root.getD .absent).Filled) (hh : (root.getD .absent).height ≤ Tree.heightLimit) :
    (evaluate ⟨corpus, mode, none⟩ root).notes? =
      some ((root.getD .absent).selects corpus mode) ∧
    (∀ n, (evaluate ⟨corpus, mode, some n⟩ root).notes? = none ∨
      (evaluate ⟨corpus, mode, some n⟩ root).notes? =
        some ((root.getD .absent).selects corpus mode)) ∧
    ((corpus.map (·.id)).Nodup → (root.getD .absent).selects corpus mode =
      corpus.filter fun note =>
        (root.getD .absent).holds fun field value => note.matchesLeaf mode field value) := by
  have hall : ∀ allowance, (evaluate ⟨corpus, mode, allowance⟩ root).notes? =
        some ((root.getD .absent).selects corpus mode) ∨
      allowance ≠ none ∧ (evaluate ⟨corpus, mode, allowance⟩ root).notes? = none := by
    cases root with
    | none => exact fun _ => .inl (congrArg some Tree.selects_absent.symm)
    | some t => exact evaluate_of_returns (returns_ids hf hh)
  refine ⟨?_, fun n => ?_, fun hdistinct => Tree.selects_of_nodup hdistinct _⟩
  · rcases hall none with hnotes | ⟨hne, -⟩
    · exact hnotes
    · exact absurd rfl hne
  · rcases hall (some n) with hnotes | ⟨-, hcancelled⟩
    · exact .inr hnotes
    · exact .inl hcancelled

/-- Two notes share an id: a title that only the second has speaks for the first, and a negated
node of an unknown kind stands in nobody's way. -/
theorem notes_evaluate_shared_id :
    (evaluate ⟨[⟨['1'], "Plan".toList, [], [], none, none⟩,
        ⟨['2'], "Draft".toList, [], [], none, none⟩,
        ⟨['1'], "Idea".toList, [], [], none, none⟩], .ignored, none⟩
      (some (.all [.leaf .title "idea".toList, .negation (.unknown "Range".toList)]))).notes? =
        some [⟨['1'], "Plan".toList, [], [], none, none⟩] := by
  refine (notes_evaluate _ _ ?_ ?_).1.trans ?_
  · exact ⟨by simp, trivial, trivial, trivial⟩
  · decide
  · decide +kernel

end Evaluation

end NoteQuery

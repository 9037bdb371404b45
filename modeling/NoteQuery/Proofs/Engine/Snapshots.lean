import NoteQuery.Proofs.Engine.Steps

/-!
# What the engines of a session show

In every run the snapshot of an engine is told by what was published on it: its number is the count
of the publications, its notes are those of the last one, and its vocabulary is that of its notes
(`Snapshot.Shows`). Actions on other engines do not touch it, and neither does a corpus that is
refused. `Session.snapshots_of_run` says all of it.
-/

set_option autoImplicit false

namespace NoteQuery

/-- Whether a snapshot is the one that some publications lead to. -/
structure Snapshot.Shows (published : List (List Intake.Offer)) (snapshot : Snapshot) : Prop where
  version_eq : snapshot.version = published.length
  /-- Before the first publication there are no notes. -/
  notes_taken : List.Forall₂ (fun o n => o.taken = .ok n) (published.getLast?.getD [])
    snapshot.notes
  vocabulary_eq : snapshot.vocabulary = Vocabulary.ofTags (snapshot.notes.flatMap (·.tags))

namespace Snapshot

theorem shows_empty : empty.Shows [] where
  version_eq := rfl
  notes_taken := .nil
  vocabulary_eq := rfl

/-- The next snapshot shows one publication more. -/
theorem Shows.build {published : List (List Intake.Offer)} {snapshot : Snapshot}
    {offers : List Intake.Offer} {notes : List Note} (h : snapshot.Shows published)
    (hnotes : Intake.notes offers = .ok notes) :
    (Snapshot.build notes (snapshot.version + 1)).Shows (published ++ [offers]) where
  version_eq := by
    show snapshot.version + 1 = _
    rw [h.version_eq, List.length_append, List.length_singleton, Int.natCast_add]
    rfl
  notes_taken := by
    rw [List.getLast?_concat]
    exact Intake.notes_eq_ok_iff.1 hnotes
  vocabulary_eq := rfl

end Snapshot

namespace Session

variable {s : Session} {index : Nat}

def onIndex (index : Nat) (history : List Entry) : List Entry :=
  history.filter fun entry => entry.index == index

theorem step_other (ids : TraceIds) (s : Session) {index other : Nat} (hne : index ≠ other)
    (action : EngineAction) :
    (s.step ids index action).1.engines[other]? = s.engines[other]? := by
  rcases s.engines_step ids index action with h | ⟨e, notes, h⟩
  · rw [h]
  · rw [h, List.getElem?_set_ne hne]

/-- An offer that is not taken leaves engines and metrics as they are, whatever the error. -/
theorem step_refused (ids : TraceIds) (s : Session) (index : Nat) {offers : List Intake.Offer}
    {o : Intake.Offer} {r : Intake.Refusal} (ho : o ∈ offers) (hr : o.taken = .error r) :
    (s.step ids index (.load offers)).1.engines = s.engines ∧
      (s.step ids index (.load offers)).1.metrics = s.metrics ∧
      (index < s.engines.length →
        ∃ refusal, (s.step ids index (.load offers)).2.result = .error refusal) := by
  obtain ⟨refusal, hrefused⟩ := Intake.notes_refused ho hr
  cases hengine : s.engines[index]? with
  | none =>
    rw [s.step_of_none ids hengine]
    refine ⟨rfl, rfl, fun hlt => ?_⟩
    exact absurd (List.getElem?_eq_none_iff.1 hengine) (Nat.not_le.2 hlt)
  | some e =>
    unfold step load
    rw [hengine]
    simp only [hrefused]
    exact ⟨trivial, trivial, fun _ => ⟨refusal, rfl⟩⟩

/-- Whether the engine at an index, with the name and the settings of `e`, shows what was published
on it. -/
def ShowsAt (index : Nat) (e : Engine) (past : List Entry) (s : Session) : Prop :=
  ∃ now, s.engines[index]? = some now ∧ now.name = e.name ∧ now.settings = e.settings ∧
    now.snapshot.Shows (publications (onIndex index past))

/-- An action that publishes nothing on an engine and leaves it as it is keeps what it shows. -/
theorem ShowsAt.keep {e : Engine} {past : List Entry} {next : Session} {entry : Entry}
    (h : ShowsAt index e past s) (hengine : next.engines[index]? = s.engines[index]?)
    (hpublished : entry.index = index → entry.published? = none) :
    ShowsAt index e (past ++ [entry]) next := by
  obtain ⟨now, hnow, hname, hsettings, hshows⟩ := h
  have hsame : publications (onIndex index (past ++ [entry])) =
      publications (onIndex index past) := by
    unfold onIndex
    rw [publications_filter_concat]
    split
    · rename_i hindex
      rw [hpublished (eq_of_beq hindex), Option.toList_none, List.append_nil]
    · rw [List.append_nil]
  refine ⟨now, hengine.trans hnow, hname, hsettings, ?_⟩
  rwa [hsame]

/-- What is published on an engine is what it shows next. -/
theorem ShowsAt.publish {e before : Engine} {past : List Entry} {next : Session} {entry : Entry}
    {offers : List Intake.Offer} {notes : List Note} (h : ShowsAt index e past s)
    (hbefore : s.engines[index]? = some before) (hindex : entry.index = index)
    (hpublished : entry.published? = some offers) (hnotes : Intake.notes offers = .ok notes)
    (hengines : next.engines = s.engines.set index (before.publish notes)) :
    ShowsAt index e (past ++ [entry]) next := by
  obtain ⟨now, hnow, hname, hsettings, hshows⟩ := h
  obtain rfl : before = now := by
    rw [hbefore] at hnow
    exact Option.some.inj hnow
  have hlt : index < s.engines.length := (List.getElem?_eq_some_iff.1 hbefore).1
  have hnext : publications (onIndex index (past ++ [entry])) =
      publications (onIndex index past) ++ [offers] := by
    unfold onIndex
    rw [publications_filter_concat, if_pos (beq_iff_eq.2 hindex), hpublished, Option.toList_some]
  refine ⟨before.publish notes, ?_, hname, hsettings, ?_⟩
  · rw [hengines]
    exact List.getElem?_set_self hlt
  · rw [hnext]
    exact hshows.build hnotes

/-- Every action, on this engine or another, leaves an engine showing what was published on it. -/
theorem showsAt_step (ids : TraceIds) {e before : Engine} {past : List Entry} {place : Nat}
    (action : EngineAction) (hbefore : s.engines[place]? = some before)
    (h : ShowsAt index e past s) :
    ShowsAt index e (past ++ [s.entry ids place before action]) (s.step ids place action).1 := by
  by_cases hplace : place = index
  · subst hplace
    cases step_effect ids hbefore action with
    | publishes hpublished _ hnotes hengines _ =>
      exact h.publish hbefore rfl hpublished hnotes hengines
    | searches hpublished _ hengines _ => exact h.keep (by rw [hengines]) fun _ => hpublished
    | keeps hpublished _ hengines _ => exact h.keep (by rw [hengines]) fun _ => hpublished
  · exact h.keep (s.step_other ids hplace action) fun hsame => absurd hsame hplace

/-- In every run of new engines, the snapshot of each is told by what was published on it. An action
changes no other engine. One offer that is not taken, wherever it stands and whatever the error,
changes no engine, neither its snapshot nor what it suggests, and no metric. -/
theorem snapshots_of_run (ids : TraceIds) (specs : List (Settings × Option Text))
    (actions : List (Nat × EngineAction)) :
    let first := start (specs.map fun spec => Engine.create spec.1 spec.2)
    let last := first.run ids actions
    (∀ index spec, specs[index]? = some spec →
      ShowsAt index (.create spec.1 spec.2) (first.history ids actions) last) ∧
    (∀ index other action, index ≠ other →
      (last.step ids index action).1.engines[other]? = last.engines[other]?) ∧
    ∀ index offers o r, o ∈ offers → Intake.Offer.taken o = .error r →
      (last.step ids index (.load offers)).1.engines = last.engines ∧
        (last.step ids index (.load offers)).1.metrics = last.metrics ∧
        (index < last.engines.length →
          ∃ refusal, (last.step ids index (.load offers)).2.result = .error refusal) := by
  intro first last
  refine ⟨?_, ?_, ?_⟩
  · intro index spec hspec
    have hfirst : ShowsAt index (.create spec.1 spec.2) [] first := by
      refine ⟨.create spec.1 spec.2, ?_, rfl, rfl, Snapshot.shows_empty⟩
      show (specs.map fun spec => Engine.create spec.1 spec.2)[index]? = _
      rw [List.getElem?_map, hspec]
      rfl
    refine run_induction ids ?_ actions [] first hfirst
    intro past s place before action hbefore h
    exact showsAt_step ids action hbefore h
  · intro index other action hne
    exact last.step_other ids hne action
  · intro index offers o r ho hr
    exact last.step_refused ids index ho hr

/-- Two engines. The first publishes a note, is cleared and publishes two notes; the second is refused
when its second note cannot be had, and again later. -/
theorem snapshots_of_run_two_engines :
    let plan : Note := ⟨['1'], "Plan".toList, [], ["x".toList], none, none⟩
    let idea : Note := ⟨['2'], "Idea".toList, [], [], none, none⟩
    let ids : TraceIds := ⟨⟨fun _ => [], fun _ => []⟩, none⟩
    let settings : Settings := ⟨50, false, 100, 10, "default".toList, .info, true⟩
    let first := start ([(settings, none), (settings, some "b".toList)].map fun spec =>
      Engine.create spec.1 spec.2)
    let gone : Intake.Offer := .failure "OSError".toList "gone".toList
    let last := first.run ids [(0, .load [.note plan]), (1, .load [.note plan, gone]), (0, .clear),
      (0, .load [.note idea, .note plan])]
    (∃ now, last.engines[0]? = some now ∧ now.snapshot.version = 3 ∧
      now.snapshot.notes = [idea, plan]) ∧
    (last.step ids 1 (.load [.note plan, gone])).1.engines = last.engines := by
  intro plan idea ids settings first gone last
  have h := snapshots_of_run ids [(settings, none), (settings, some "b".toList)]
    [(0, .load [.note plan]), (1, .load [.note plan, gone]), (0, .clear),
      (0, .load [.note idea, .note plan])]
  obtain ⟨now, hnow, -, -, hshows⟩ := h.1 0 (settings, none) rfl
  have hversion : now.snapshot.version = 3 := hshows.version_eq
  have hnotes : Intake.notes [.note idea, .note plan] = .ok now.snapshot.notes :=
    Intake.notes_eq_ok_iff.2 hshows.notes_taken
  have hrefused := h.2.2 1 [.note plan, gone] gone _ (by simp) rfl
  exact ⟨⟨now, hnow, hversion, (Except.ok.inj hnotes).symm⟩, hrefused.1⟩

end Session

end NoteQuery

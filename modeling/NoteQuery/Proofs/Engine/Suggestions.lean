import NoteQuery.Proofs.Engine.Steps
import NoteQuery.Proofs.Query.TagCompletion

/-!
# Which tags an engine suggests

In every run an engine keeps the vocabulary of its notes (`Session.lists_of_run`). Completion puts the
tags that it is given in order once more, which changes nothing about a vocabulary: behind a tag
marker an engine suggests the part of its vocabulary that goes on from the value, in the order that it
has there (`Session.tags_suggested_in_run`).
-/

set_option autoImplicit false

namespace NoteQuery

open Completion (completed fragment renderTag upTo)

/-- Whether the vocabulary of an engine is that of its notes. -/
def Engine.Lists (e : Engine) : Prop :=
  Vocabulary.Lists e.snapshot.vocabulary e.snapshot.notes

theorem Engine.lists_create (settings : Settings) (name : Option Text) :
    (create settings name).Lists :=
  Snapshot.lists_build [] 0

theorem Engine.lists_publish (e : Engine) (notes : List Note) : (e.publish notes).Lists :=
  Snapshot.lists_build notes _

namespace Session

/-- An action replaces one vocabulary with that of other notes, or leaves all as they are. -/
theorem lists_step (ids : TraceIds) {s : Session} (h : ∀ e ∈ s.engines, e.Lists) (index : Nat)
    (action : EngineAction) : ∀ e ∈ (s.step ids index action).1.engines, e.Lists := by
  rcases s.engines_step ids index action with hsame | ⟨before, notes, hset⟩
  · rw [hsame]
    exact h
  · rw [hset]
    intro e he
    rcases List.mem_or_eq_of_mem_set he with hold | rfl
    · exact h e hold
    · exact before.lists_publish notes

theorem lists_of_run (ids : TraceIds) (specs : List (Settings × Option Text))
    (actions : List (Nat × EngineAction)) :
    ∀ e ∈ ((start (specs.map fun spec => Engine.create spec.1 spec.2)).run ids actions).engines,
      e.Lists := by
  refine run_induction (P := fun _ s => ∀ e ∈ s.engines, e.Lists) ids ?_ actions [] _ ?_
  · intro _ s index _ action _ h
    exact lists_step ids h index action
  · intro e he
    obtain ⟨spec, -, rfl⟩ := List.mem_map.1 he
    exact Engine.lists_create spec.1 spec.2

/-- A snapshot has the tags of its notes, each once and in the order of their foldings, and it is one
vocabulary for all orders and repetitions of the notes. In every run of new engines the vocabulary of
each is that of its notes. Where the text in front can be divided and no phrase is open, an engine
suggests behind a tag marker the tags of its vocabulary that go on from the value in any case, in the
order of the vocabulary, each behind the marker as it was typed, up to the limit of its settings. The
same tags known in another order, or some of them twice, are suggested in the same way. -/
theorem tags_suggested_in_run (ids : TraceIds) (specs : List (Settings × Option Text))
    (actions : List (Nat × EngineAction)) :
    (∀ notes version, Vocabulary.Lists (Snapshot.build notes version).vocabulary notes ∧
      ∀ others next, (∀ note, note ∈ others ↔ note ∈ notes) →
        (Snapshot.build others next).vocabulary = (Snapshot.build notes version).vocabulary) ∧
    ∀ e ∈ ((start (specs.map fun spec => Engine.create spec.1 spec.2)).run ids actions).engines,
      Vocabulary.Lists e.snapshot.vocabulary e.snapshot.notes ∧
      (∀ query letters value tokens, query.count '"' % 2 = 0 →
        Token.scan (completed query) = .ok tokens → fragment query = letters ++ ':' :: value →
        letters.map Char.toLower = "tag".toList →
        let fitting := (e.snapshot.vocabulary.filter fun tag =>
          !tag.isEmpty && (Text.fold value).isPrefixOf (Text.fold tag)).map fun tag =>
            letters ++ ':' :: renderTag tag
        e.suggest query = upTo (some e.settings.suggestionLimit) fitting ∧
          (0 ≤ e.settings.suggestionLimit →
            e.suggest query = fitting.take e.settings.suggestionLimit.toNat)) ∧
      ∀ query known, (∀ tag, tag ∈ known ↔ tag ∈ e.snapshot.vocabulary) →
        Completion.suggest query known (some e.settings.suggestionLimit) = e.suggest query := by
  refine ⟨?_, ?_⟩
  · intro notes version
    have hlists := Snapshot.lists_build notes version
    refine ⟨hlists, fun others next hsame => ?_⟩
    exact (Snapshot.lists_build others next).unique hlists hsame
  · intro e he
    have hlists := lists_of_run ids specs actions e he
    refine ⟨hlists, ?_, ?_⟩
    · intro query letters value tokens heven hscan hfragment hletters fitting
      have hsuggest : e.suggest query = upTo (some e.settings.suggestionLimit) fitting :=
        Completion.suggest_of_increasing heven hscan hfragment hletters hlists.increasing _
      refine ⟨hsuggest, fun hlimit => ?_⟩
      rw [hsuggest]
      exact Completion.upTo_of_nonneg hlimit fitting
    · intro query known hknown
      exact Completion.suggest_congr hknown query _

/-- Two tags with one folding that two notes have: the one in capitals stands first, though the other
is known first. -/
theorem tags_suggested_in_run_one_folding :
    let plan : Note := ⟨['1'], "Plan".toList, [], ["work".toList, "Straße".toList], none, none⟩
    let idea : Note := ⟨['2'], "Idea".toList, [], ["STRASSE".toList, "work".toList], none, none⟩
    let ids : TraceIds := ⟨⟨fun _ => [], fun _ => []⟩, none⟩
    let settings : Settings := ⟨50, false, 100, 10, "default".toList, .info, true⟩
    let e : Engine := (Engine.create settings none).publish [plan, idea]
    let query : Text := "\"to do\" (TAG:strasS".toList
    let last := (start [Engine.create settings none]).run ids [(0, .load [.note plan, .note idea])]
    (e ∈ last.engines ∧ query.count '"' % 2 = 0 ∧
        (∃ tokens, Token.scan (completed query) = .ok tokens) ∧
        fragment query = "TAG".toList ++ ':' :: "strasS".toList ∧
        "TAG".toList.map Char.toLower = "tag".toList ∧ 0 ≤ e.settings.suggestionLimit) ∧
      e.suggest query = ["TAG:STRASSE".toList, "TAG:Straße".toList] ∧
      Completion.suggest query
        ["Straße".toList, "work".toList, "STRASSE".toList, "Straße".toList] (some 10) =
          e.suggest query := by
  intro plan idea ids settings e query last
  have hengine : e ∈ last.engines := List.mem_singleton.2 rfl
  have heven : query.count '"' % 2 = 0 := by decide +kernel
  have hscan : Token.scan (completed query) =
      .ok [⟨.phrase, "to do".toList, 0⟩, ⟨.opening, ['('], 8⟩, ⟨.done, [], 9⟩] := by
    decide +kernel
  have hfragment : fragment query = "TAG".toList ++ ':' :: "strasS".toList := by decide +kernel
  have hletters : "TAG".toList.map Char.toLower = "tag".toList := by decide
  have hlimit : 0 ≤ e.settings.suggestionLimit := by decide
  have hvocabulary : e.snapshot.vocabulary =
      ["STRASSE".toList, "Straße".toList, "work".toList] := by
    decide +kernel
  obtain ⟨-, hsuggest, hknown⟩ := (tags_suggested_in_run ids [(settings, none)]
    [(0, .load [.note plan, .note idea])]).2 e hengine
  refine ⟨⟨hengine, heven, ⟨_, hscan⟩, hfragment, hletters, hlimit⟩, ?_, ?_⟩
  · rw [(hsuggest query _ _ _ heven hscan hfragment hletters).2 hlimit, hvocabulary]
    decide +kernel
  · refine hknown query _ fun tag => ?_
    rw [hvocabulary]
    simp only [List.mem_cons, List.not_mem_nil, or_false]
    constructor
    · rintro (h | h | h | h) <;> simp [h]
    · rintro (h | h | h) <;> simp [h]

end Session

end NoteQuery

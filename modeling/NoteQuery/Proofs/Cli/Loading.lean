import NoteQuery.Cli.Program
import NoteQuery.Proofs.Engine.Steps

/-!
# How the program loads its notes

What a file gives is a list of notes (`Program.Gives`), or it is complained of, or the program
stumbles over tags in it (`Program.StumblesOver`). `Program.withNotes_cases` says what it does in
each case: with notes, its one engine goes on with them.
-/

set_option autoImplicit false

namespace NoteQuery

namespace Program

variable {s : Surroundings} {setup : LogSetup} {state : State}

/-! ## Actions of the program -/

/-- Whether the one engine of the program is this one. -/
def HasEngine (state : State) (e : Engine) : Prop :=
  state.session.engines[0]? = some e

theorem hasEngine_start (settings : Settings) :
    HasEngine ⟨.start [.create settings none], []⟩ (.create settings none) :=
  rfl

/-- What is logged has no influence on the reply. -/
theorem act_result (s : Surroundings) (setup : LogSetup) (state : State) (action : EngineAction) :
    (act s setup state action).2 = (state.session.step ⟨s.ids, none⟩ 0 action).2.result := by
  unfold act
  simp only
  split
  · rfl
  · split <;> rfl

theorem act_engines (s : Surroundings) (setup : LogSetup) (state : State)
    (action : EngineAction) : (act s setup state action).1.session.engines =
      (state.session.step ⟨s.ids, none⟩ 0 action).1.engines := by
  unfold act
  simp only
  split
  · rfl
  · split <;> rfl

theorem HasEngine.act_validate {e : Engine} (h : HasEngine state e) (query : Text) :
    HasEngine (act s setup state (.validate query)).1 e := by
  unfold HasEngine
  rw [act_engines]
  unfold Session.step
  simp only [show state.session.engines[0]? = some e from h]

/-- Notes that are taken go to the engine. -/
theorem HasEngine.act_load {e : Engine} (h : HasEngine state e) {offers : List Intake.Offer}
    {notes : List Note} (hnotes : Intake.notes offers = .ok notes) :
    HasEngine (act s setup state (.load offers)).1 (e.publish notes) := by
  have hlength : 0 < state.session.engines.length := (List.getElem?_eq_some_iff.1 h).1
  unfold HasEngine
  rw [act_engines]
  unfold Session.step Session.load
  simp only [show state.session.engines[0]? = some e from h, hnotes]
  exact List.getElem?_set_self hlength

theorem answer_of_result {action : EngineAction} {reply : Reply}
    (h : (state.session.step ⟨s.ids, none⟩ 0 action).2.result = .ok reply) :
    answer s setup state action =
      print s setup (act s setup state action).1 successCode (.json reply) := by
  have hresult := act_result s setup state action
  rw [h] at hresult
  unfold answer
  cases hact : act s setup state action with
  | mk next result =>
    rw [hact] at hresult
    simp only at hresult
    rw [hresult]

/-! ## The notes under a path -/

/-- Whether the file under a path gives some notes. -/
def Gives (s : Surroundings) (path : Text) (notes : List Note) : Prop :=
  ∃ entries, load s path = .ok entries ∧ Intake.notes (entries.map .datum) = .ok notes

/-- Whether the file under a path holds a list of notes. -/
def Loads (s : Surroundings) (path : Text) : Prop :=
  ∃ entries : List Json, load s path = .ok (entries.map Datum.ofJson) ∧
    ∀ j ∈ entries, Intake.IsNote j

/-- Whether the file under a path holds a list in which tags that cannot be looked into come before
every other flaw. -/
def StumblesOver (s : Surroundings) (path : Text) : Prop :=
  ∃ entries : List Json, load s path = .ok (entries.map Datum.ofJson) ∧ Intake.Stumbles entries

theorem decode?_toUTF8 (text : String) : decode? text.toUTF8 = Json.read? text.toList := by
  unfold decode? Text.ofUtf8? String.fromUTF8?
  rw [String.toUTF8_eq_toByteArray, dif_pos text.isValidUTF8]
  rfl

/-- What a file gives whose text is known. -/
theorem load_of_text {path : Text} {text : String} {j : Json} {entries : List Json}
    (hfile : s.readFile path = .ok text.toUTF8) (hjson : Json.read? text.toList = some j)
    (hentries : entries? j = some entries) :
    load s path = .ok (entries.map Datum.ofJson) := by
  unfold load
  simp only [hfile, decode?_toUTF8, hjson, hentries]

theorem exists_entries_of_load {path : Text} {ds : List Datum} (h : load s path = .ok ds) :
    ∃ entries : List Json, ds = entries.map Datum.ofJson := by
  unfold load at h
  split at h
  · cases h
  · split at h
    · cases h
    · split at h
      · cases h
      · exact ⟨_, (Except.ok.inj h).symm⟩

theorem map_datum_ofJson (entries : List Json) :
    (entries.map Datum.ofJson).map Intake.Offer.datum = entries.map Intake.offer := by
  rw [List.map_map]
  rfl

/-- What is true of the entries of a file, told by what the intake makes of them. -/
theorem exists_entries_iff {path : Text} {ds : List Datum} (h : load s path = .ok ds)
    {P : List Json → Prop} (Q : Except Intake.Refusal (List Note) → Prop)
    (hiff : ∀ entries : List Json, Q (Intake.notes (entries.map Intake.offer)) ↔ P entries) :
    (∃ entries : List Json, load s path = .ok (entries.map Datum.ofJson) ∧ P entries) ↔
      Q (Intake.notes (ds.map .datum)) := by
  constructor
  · rintro ⟨entries, hentries, hnotes⟩
    obtain rfl := Except.ok.inj (h.symm.trans hentries)
    rw [map_datum_ofJson]
    exact (hiff entries).2 hnotes
  · intro hnotes
    obtain ⟨entries, rfl⟩ := exists_entries_of_load h
    rw [map_datum_ofJson] at hnotes
    exact ⟨entries, h, (hiff entries).1 hnotes⟩

theorem loads_iff {path : Text} {ds : List Datum} (h : load s path = .ok ds) :
    Loads s path ↔ ∃ ns, Intake.notes (ds.map .datum) = .ok ns :=
  exists_entries_iff h (fun r => ∃ ns, r = .ok ns) Intake.notes_taken_iff

theorem stumblesOver_iff {path : Text} {ds : List Datum} (h : load s path = .ok ds) :
    StumblesOver s path ↔ ∃ b, Intake.notes (ds.map .datum) = .error (.broken b) :=
  exists_entries_iff h (fun r => ∃ b, r = .error (.broken b)) Intake.notes_broken_iff

/-- The notes that a file gives whose text is known. -/
theorem gives_of_text {path : Text} {text : String} {notes : List Note}
    (hfile : s.readFile path = .ok text.toUTF8)
    (hnotes : ((Json.read? text.toList).bind entries?).any (fun entries =>
      (Intake.notes (entries.map Intake.offer)).toOption == some notes) = true) :
    Gives s path notes := by
  obtain ⟨entries, hsome, htaken⟩ := (Option.any_eq_true _ _).1 hnotes
  obtain ⟨j, hjson, hlist⟩ := Option.bind_eq_some_iff.1 hsome
  refine ⟨_, load_of_text hfile hjson hlist, ?_⟩
  rw [map_datum_ofJson]
  rw [beq_iff_eq] at htaken
  cases hresult : Intake.notes (entries.map Intake.offer) with
  | error r =>
    rw [hresult] at htaken
    cases htaken
  | ok ns =>
    rw [hresult] at htaken
    exact congrArg Except.ok (Option.some.inj htaken)

theorem Gives.loads {path : Text} {notes : List Note} (h : Gives s path notes) : Loads s path := by
  obtain ⟨entries, hload, hnotes⟩ := h
  exact (loads_iff hload).2 ⟨notes, hnotes⟩

theorem Gives.unique {path : Text} {notes others : List Note} (h : Gives s path notes)
    (h' : Gives s path others) : notes = others := by
  obtain ⟨entries, hload, hnotes⟩ := h
  obtain ⟨entries', hload', hothers⟩ := h'
  obtain rfl := Except.ok.inj (hload.symm.trans hload')
  exact Except.ok.inj (hnotes.symm.trans hothers)

theorem not_loads_of_mem {path : Text} {entries : List Json} {j : Json}
    (h : load s path = .ok (entries.map Datum.ofJson)) (hj : j ∈ entries)
    (hnot : ¬Intake.IsNote j) : ¬Loads s path := by
  rw [loads_iff h, map_datum_ofJson, Intake.notes_taken_iff]
  intro hall
  exact hnot (hall j hj)

theorem Loads.not_stumblesOver {path : Text} (h : Loads s path) : ¬StumblesOver s path := by
  intro hstumbles
  obtain ⟨entries, hload, -⟩ := id h
  obtain ⟨ns, hns⟩ := (loads_iff hload).1 h
  obtain ⟨b, hb⟩ := (stumblesOver_iff hload).1 hstumbles
  rw [hns] at hb
  cases hb

/-- What the intake makes of the entries of a file decides how the program goes on. -/
theorem withNotes_of_load {e : Engine} (hstate : HasEngine state e) {path : Text} {ds : List Datum}
    (hload : load s path = .ok ds) (next : State → Run) :
    withNotes s setup state path next =
      match Intake.notes (ds.map .datum) with
      | .ok _ => next (act s setup state (.load (ds.map .datum))).1
      | .error (.invalid title problems) => complain setup state unusableCode
          ("Cannot load notes from ".toList ++ path ++ ": ".toList ++
            (LoadError.refused (.invalid title problems)).message path)
      | .error refusal => giveUp setup (act s setup state (.load (ds.map .datum))).1 refusal := by
  have hresult := act_result s setup state (.load (ds.map .datum))
  rw [Session.result_load _ hstate] at hresult
  unfold withNotes
  simp only [hload]
  cases hact : act s setup state (.load (ds.map .datum)) with
  | mk state' result =>
    rw [hact] at hresult
    simp only at hresult
    rw [hresult]
    cases Intake.notes (ds.map .datum) with
    | ok ns => rfl
    | error r => cases r <;> rfl

/-- With the notes that a file gives, the program goes on. -/
theorem withNotes_of_gives {e : Engine} (hstate : HasEngine state e) {path : Text}
    {notes : List Note} (h : Gives s path notes) (next : State → Run) :
    ∃ state', HasEngine state' (e.publish notes) ∧
      withNotes s setup state path next = next state' := by
  obtain ⟨ds, hload, hnotes⟩ := h
  refine ⟨(act s setup state (.load (ds.map .datum))).1, hstate.act_load hnotes, ?_⟩
  rw [withNotes_of_load hstate hload, hnotes]

/-- The program goes on with notes, or complains of what is no list of them, or breaks off. -/
theorem withNotes_cases {e : Engine} (hstate : HasEngine state e) (path : Text)
    (next : State → Run) :
    (∃ notes state', Gives s path notes ∧ HasEngine state' (e.publish notes) ∧
      withNotes s setup state path next = next state') ∨
    (¬Loads s path ∧ ¬StumblesOver s path ∧ ∃ message, withNotes s setup state path next =
      complain setup state unusableCode
        ("Cannot load notes from ".toList ++ path ++ ": ".toList ++ message)) ∨
    (StumblesOver s path ∧ ∃ state' b,
      withNotes s setup state path next = giveUp setup state' (.broken b)) := by
  cases hload : load s path with
  | error e =>
    have hnot : ∀ ds, load s path ≠ .ok ds := by
      simp [hload]
    have hrun : withNotes s setup state path next = complain setup state unusableCode
        ("Cannot load notes from ".toList ++ path ++ ": ".toList ++ e.message path) := by
      unfold withNotes
      simp only [hload]
    refine .inr (.inl ⟨?_, ?_, e.message path, hrun⟩)
    · rintro ⟨entries, hentries, -⟩
      exact hnot _ hentries
    · rintro ⟨entries, hentries, -⟩
      exact hnot _ hentries
  | ok ds =>
    obtain ⟨entries, rfl⟩ := exists_entries_of_load hload
    rcases Intake.notes_cases entries with ⟨ns, hns⟩ | ⟨title, problems, hns⟩ | ⟨b, hns⟩
    · have hgives : Gives s path ns := ⟨_, hload, by rw [map_datum_ofJson, hns]⟩
      obtain ⟨state', hstate', hrun⟩ := withNotes_of_gives hstate hgives next
      exact .inl ⟨ns, state', hgives, hstate', hrun⟩
    · rw [withNotes_of_load hstate hload, loads_iff hload, stumblesOver_iff hload,
        map_datum_ofJson, hns]
      exact .inr (.inl ⟨by simp, by simp, _, rfl⟩)
    · rw [withNotes_of_load hstate hload, loads_iff hload, stumblesOver_iff hload,
        map_datum_ofJson, hns]
      exact .inr (.inr ⟨⟨b, rfl⟩, _, b, rfl⟩)

theorem ending_of_stumblesOver {e : Engine} (hstate : HasEngine state e) {path : Text}
    {next : State → Run} (h : StumblesOver s path) :
    ∃ b, (withNotes s setup state path next).ending = .broken (.broken b) := by
  rcases withNotes_cases hstate path next with
    ⟨notes, -, hgives, -⟩ | ⟨-, hnot, -⟩ | ⟨-, state', b, hrun⟩
  · exact absurd h hgives.loads.not_stumblesOver
  · exact absurd h hnot
  · rw [hrun]
    exact ⟨b, rfl⟩

end Program

end NoteQuery

import NoteQuery.Proofs.Cli.Loading
import NoteQuery.Proofs.Engine.Answers

/-!
# What the program prints

What a command has to say depends on its operands, the settings and the notes that its file gives
(`Program.Says`). It is printed as it is, or the program breaks off: where a text that is to become
JSON is not made of characters alone, or where the output stream lacks a character
(`Program.Writable`). A result repeats the query that it answers, and so a query with an undecoded
byte in it cannot be answered with results (`Program.error?_of_query`).
-/

set_option autoImplicit false

namespace NoteQuery

/-! ## Texts in JSON -/

namespace Json

theorem mem_textsOfElements {t : Text} {js : List Json} :
    t ∈ textsOfElements js ↔ ∃ j ∈ js, t ∈ texts j := by
  induction js with
  | nil => simp [textsOfElements]
  | cons j js ih => simp [textsOfElements, ih]

theorem asked_mem_texts (r : SearchResult) : r.queryInfo.asked ∈ texts (ofResult r) := by
  simp [ofResult, ofQueryInfo, object, texts, textsOfMembers]

end Json

namespace Program

variable {s : Surroundings} {settings : Settings} {setup : LogSetup} {state : State}

/-! ## What can be printed -/

/-- Whether something can be printed as a whole. -/
structure Writable (s : Surroundings) (output : Output) : Prop where
  /-- What becomes JSON is made of characters alone. -/
  decoded : ∀ t ∈ output.texts, ∀ c ∈ t, s.undecoded c = false
  /-- The output stream has bytes for every character. -/
  encoded : ∀ c ∈ output.render 0.0, s.encodes c = true

theorem error?_eq_none_iff {output : Output} : output.error? s = none ↔ Writable s output := by
  have hdecoded : output.texts.any (·.any s.undecoded) = true ↔
      ¬∀ t ∈ output.texts, ∀ c ∈ t, s.undecoded c = false := by
    simp
  unfold Output.error?
  split
  · rename_i hundecoded
    refine iff_of_false (by simp) ?_
    rintro ⟨h, -⟩
    exact hdecoded.1 hundecoded h
  · rename_i hnot
    rw [hdecoded, Classical.not_not] at hnot
    rw [Option.map_eq_none_iff, List.find?_eq_none]
    constructor
    · intro h
      exact ⟨hnot, by simpa using h⟩
    · rintro ⟨-, h⟩
      simpa using h

theorem print_of_writable {output : Output} (h : Writable s output) (code : Nat) :
    print s setup state code output = ⟨.exit code, some output, none, state.logged, setup⟩ := by
  unfold print
  rw [error?_eq_none_iff.2 h]

theorem print_of_error {output : Output} {error : PrintError} (h : output.error? s = some error)
    (code : Nat) : print s setup state code output =
      ⟨.unprinted error, output.printable? s, none, state.logged, setup⟩ := by
  unfold print
  rw [h]

theorem print_cases (s : Surroundings) (setup : LogSetup) (state : State) (code : Nat)
    (output : Output) :
    (Writable s output ∧ (print s setup state code output).ending = .exit code) ∨
      (¬Writable s output ∧ ∃ error,
        (print s setup state code output).ending = .unprinted error ∧
        (print s setup state code output).output = output.printable? s) := by
  cases herror : output.error? s with
  | none =>
    have hwritable := error?_eq_none_iff.1 herror
    exact .inl ⟨hwritable, by rw [print_of_writable hwritable]⟩
  | some error =>
    refine .inr ⟨?_, error, by rw [print_of_error herror], by rw [print_of_error herror]⟩
    rw [← error?_eq_none_iff, herror]
    rintro ⟨⟩

/-- Results repeat the query. So they cannot be printed where it holds an undecoded byte. -/
theorem error?_of_query {a : Answer} {c : Char} (hhits : a.hits ≠ []) (hc : c ∈ a.query)
    (hundecoded : s.undecoded c = true) :
    (Output.json (.answer (some a))).error? s = some .undecoded := by
  obtain ⟨⟨note, highlights⟩, hits, hcons⟩ := List.exists_cons_of_ne_nil hhits
  obtain ⟨r, hr, hasked⟩ : ∃ r ∈ a.results 0.0, r.queryInfo.asked = a.query := by
    unfold Answer.results
    rw [hcons]
    exact ⟨_, List.mem_cons_self, rfl⟩
  have hquery : a.query ∈ (Output.json (.answer (some a))).texts := by
    refine Json.mem_textsOfElements.2 ⟨_, List.mem_map_of_mem hr, ?_⟩
    rw [← hasked]
    exact Json.asked_mem_texts r
  unfold Output.error?
  rw [if_pos]
  rw [List.any_eq_true]
  exact ⟨_, hquery, List.any_eq_true.2 ⟨c, hc, hundecoded⟩⟩

/-! ## What commands say -/

/-- The engine that a command asks, once it has its notes. -/
def engineWith (settings : Settings) (notes : List Note) : Engine :=
  (Engine.create settings none).publish notes

/-- What a command has to say: a verdict, the help, the completions of a query, or the answer to a
query with a limit that is one. -/
inductive Says (s : Surroundings) (settings : Settings) : Command → Output → Prop
  | verdict (query : Text) :
      Says s settings (.validate query) (.json (.verdict (Engine.validate query)))
  | help : Says s settings .help (.lines (syntaxHelp.map String.toList))
  | completions {path : Text} {notes : List Note} (hnotes : Gives s path notes) (query : Text) :
      Says s settings (.suggest path query)
        (.json (.texts ((engineWith settings notes).suggest query)))
  | answer {path : Text} {notes : List Note} (hnotes : Gives s path notes) {query : Text}
      (hquery : (Parsed.ofText query).isValid = true) {maxResults : Option Int}
      (hlimit : 1 ≤ maxResults.getD settings.maxResults) (caseSensitive noBody : Bool) :
      Says s settings (.search path query maxResults caseSensitive noBody)
        (.json (.answer ((engineWith settings notes).search query
          ⟨maxResults.getD settings.maxResults, !noBody, caseSensitive || settings.caseSensitive⟩
          none).answer?))

theorem Says.unique {command : Command} {output other : Output}
    (h : Says s settings command output) (h' : Says s settings command other) :
    output = other := by
  cases h with
  | verdict query =>
    cases h'
    rfl
  | help =>
    cases h'
    rfl
  | completions hnotes query =>
    cases h' with
    | completions hothers _ =>
      rw [hnotes.unique hothers]
  | answer hnotes _ _ _ _ =>
    cases h' with
    | answer hothers _ _ _ _ =>
      rw [hnotes.unique hothers]

/-- A command that needs notes says nothing without them. -/
theorem Says.loads {command : Command} {output : Output} (h : Says s settings command output)
    {path : Text} (hpath : command.notes? = some path) : Loads s path := by
  cases h with
  | verdict query => cases hpath
  | help => cases hpath
  | completions hnotes query =>
    cases hpath
    exact hnotes.loads
  | answer hnotes hquery hlimit caseSensitive noBody =>
    cases hpath
    exact hnotes.loads

theorem error_validate_eq_none_iff (query : Text) :
    (Engine.validate query).error = none ↔ (Parsed.ofText query).isValid = true := by
  unfold Engine.validate
  cases Parsed.ofText query <;> simp [Parsed.error?, Parsed.isValid]

/-- Only the limit of the options can be wrong. -/
theorem result_optionsFor (settings : Settings) (maxResults : Option Int)
    (caseSensitive noBody : Bool) :
    (Intake.options (optionsFor settings maxResults caseSensitive noBody)).result "SearchOptions" =
      if maxResults.getD settings.maxResults < 1 then
        .error (.invalid "SearchOptions".toList [⟨[.member "max_results".toList], .tooSmall⟩])
      else
        .ok ⟨maxResults.getD settings.maxResults, !noBody,
          caseSensitive || settings.caseSensitive⟩ := by
  generalize hlimit : maxResults.getD settings.maxResults = limit
  unfold optionsFor
  rw [hlimit]
  generalize hms : [("max_results".toList, Datum.int limit), ("include_body".toList, _), _] = ms
  have hmax : Intake.optional "max_results" 50 (Intake.integerFrom 1) ms =
      if limit < 1 then .refused [⟨[.member "max_results".toList], .tooSmall⟩]
      else .accepted limit := by
    subst hms
    show (if limit < 1 then Intake.Check.flaw .tooSmall else .accepted limit).under _ = _
    split <;> rfl
  have hbody : Intake.optional "include_body" true Intake.truth ms = .accepted !noBody := by
    subst hms
    rfl
  have hcase : Intake.optional "case_sensitive" false Intake.truth ms =
      .accepted (caseSensitive || settings.caseSensitive) := by
    subst hms
    rfl
  simp only [Intake.options, Intake.members, Intake.Check.andThen, hmax, hbody, hcase]
  split <;> rfl

/-- A command prints what it says. -/
theorem perform_of_says (hstate : HasEngine state (.create settings none)) {command : Command}
    {output : Output} (h : Says s settings command output) :
    ∃ state' code, code ≤ invalidCode ∧ (command.notes?.isSome → code = successCode) ∧
      perform s settings setup state command = print s setup state' code output := by
  cases h with
  | verdict query =>
    refine ⟨_, _, ?_, ?_, rfl⟩
    · split <;> decide
    · rintro ⟨⟩
  | help => exact ⟨state, successCode, by decide, fun _ => rfl, rfl⟩
  | completions hnotes query =>
    obtain ⟨state', hstate', hrun⟩ := withNotes_of_gives hstate hnotes
      fun state => answer s setup state (.suggest query)
    rw [perform, hrun, answer_of_result (Session.result_suggest _ hstate' query)]
    exact ⟨_, successCode, by decide, fun _ => rfl, rfl⟩
  | @answer path notes hnotes query hquery maxResults hlimit caseSensitive noBody =>
    obtain ⟨state', hstate', hrun⟩ := withNotes_of_gives hstate hnotes
      (search s settings setup query maxResults caseSensitive noBody)
    have herror := (error_validate_eq_none_iff query).2 hquery
    have hoptions := result_optionsFor settings maxResults caseSensitive noBody
    rw [if_neg (Int.not_lt.2 hlimit)] at hoptions
    rw [perform, hrun]
    unfold search withVerdict
    simp only [herror, hoptions]
    rw [answer_of_result (Session.result_search _ (hstate'.act_validate query) query hoptions none)]
    exact ⟨_, successCode, by decide, fun _ => rfl, rfl⟩

/-- A search that finds notes for a query with an undecoded byte in it cannot print them. -/
theorem ending_of_undecoded (hstate : HasEngine state (.create settings none)) {path query : Text}
    {notes : List Note} {t : Tree} {c : Char} {maxResults : Option Int}
    {caseSensitive noBody : Bool} (hnotes : Gives s path notes)
    (hquery : Parsed.ofText query = .query t) (hlimit : 1 ≤ maxResults.getD settings.maxResults)
    (hfound : t.selects (Snapshot.build notes 1).notes
      (.ofSensitive (caseSensitive || settings.caseSensitive)) ≠ [])
    (hc : c ∈ query) (hundecoded : s.undecoded c = true) :
    (perform s settings setup state
      (.search path query maxResults caseSensitive noBody)).ending = .unprinted .undecoded := by
  have hvalid : (Parsed.ofText query).isValid = true := by
    rw [hquery]
    rfl
  have hsaid := Says.answer hnotes hvalid hlimit caseSensitive noBody
  obtain ⟨state', code, -, -, hrun⟩ := perform_of_says hstate hsaid
  rw [hrun]
  generalize hoptions : Options.mk _ _ _ = options
  rcases (engineWith settings notes).search_of_query options none hquery with
    ⟨warnings, hcompleted⟩ | ⟨hnone, -⟩
  · have hhits : ((engineWith settings notes).answer query t options).hits ≠ [] := by
      subst hoptions
      exact fun hnil => Completion.upTo_ne_nil hlimit hfound (List.map_eq_nil_iff.1 hnil)
    rw [hcompleted]
    exact congrArg Run.ending (print_of_error (error?_of_query hhits hc hundecoded) code)
  · exact absurd rfl hnone

/-- A command that has nothing to say needs notes. It complains, whether it has them or not, or
breaks off for them. -/
theorem perform_of_silent (hstate : HasEngine state (.create settings none)) {command : Command}
    (h : ∀ output, ¬Says s settings command output) :
    ∃ path, command.notes? = some path ∧
      ((Loads s path ∧ ∃ state' code complaint, code ≤ unusableCode ∧
        perform s settings setup state command = complain setup state' code complaint) ∨
      (¬Loads s path ∧ ¬StumblesOver s path ∧ ∃ message,
        perform s settings setup state command = complain setup state unusableCode
          ("Cannot load notes from ".toList ++ path ++ ": ".toList ++ message)) ∨
      (StumblesOver s path ∧ ∃ state' b,
        perform s settings setup state command = giveUp setup state' (.broken b))) := by
  cases command with
  | validate query => exact absurd (.verdict query) (h _)
  | help => exact absurd .help (h _)
  | suggest path query =>
    refine ⟨path, rfl, ?_⟩
    rcases withNotes_cases hstate path fun state => answer s setup state (.suggest query) with
      ⟨notes, -, hgives, -⟩ | hrun | hrun
    · exact absurd (.completions hgives query) (h _)
    · exact .inr (.inl hrun)
    · exact .inr (.inr hrun)
  | search path query maxResults caseSensitive noBody =>
    refine ⟨path, rfl, ?_⟩
    rcases withNotes_cases hstate path (search s settings setup query maxResults caseSensitive
      noBody) with ⟨notes, state', hgives, -, hrun⟩ | hrun | hrun
    · refine .inl ⟨hgives.loads, ?_⟩
      rw [perform, hrun]
      unfold search withVerdict
      simp only
      split
      · exact ⟨_, invalidCode, _, by decide, rfl⟩
      · rename_i herror
        have hquery := (error_validate_eq_none_iff query).1 herror
        have hlimit : ¬1 ≤ maxResults.getD settings.maxResults :=
          fun hlimit => h _ (.answer hgives hquery hlimit caseSensitive noBody)
        rw [result_optionsFor, if_pos (Int.not_le.1 hlimit)]
        exact ⟨_, unusableCode, _, Nat.le_refl _, rfl⟩
    · exact .inr (.inl hrun)
    · exact .inr (.inr hrun)

end Program

end NoteQuery

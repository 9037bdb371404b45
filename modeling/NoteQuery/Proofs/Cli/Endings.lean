import NoteQuery.Proofs.Cli.Output

/-!
# How the program ends

Once its arguments and its settings can be read, the program ends with one of three codes, with
three exceptions: the name of a level that is none, tags that cannot be looked into in front of
every other flaw in the notes, and something to say that cannot be printed. `Program.run_conduct`
says so, and what a code that is not that of success means for what is printed.
-/

set_option autoImplicit false

namespace NoteQuery

/-! ## Names of levels -/

namespace Level

/-- Whether a text is, in any case, one of the two names that are known and stand for no level. -/
def NamesNoLevel (name : Text) : Prop :=
  Text.upper name = "BASIC_FORMAT".toList ∨ Text.upper name = "_STYLES".toList

instance (name : Text) : Decidable (NamesNoLevel name) :=
  inferInstanceAs (Decidable (_ ∨ _))

theorem threshold_error_iff (name : Text) :
    (∃ e, threshold name = .error e) ↔ NamesNoLevel name := by
  unfold threshold NamesNoLevel
  simp only
  split
  · rename_i hformat
    exact ⟨fun _ => .inl hformat, fun _ => ⟨_, rfl⟩⟩
  · rename_i hformat
    split
    · rename_i htable
      exact ⟨fun _ => .inr htable, fun _ => ⟨_, rfl⟩⟩
    · rename_i htable
      constructor
      · rintro ⟨e, ⟨⟩⟩
      · rintro (h | h)
        · exact absurd h hformat
        · exact absurd h htable

theorem not_namesNoLevel_lowerName (l : Level) : ¬NamesNoLevel l.lowerName := by
  cases l <;> decide

end Level

/-- Only a name that is given can name no level: where none is, the level of the settings is taken,
and that is one. -/
theorem Level.namesNoLevel_chosen (l : Level) (given : Text) :
    NamesNoLevel (if given.isEmpty then l.lowerName else given) ↔ NamesNoLevel given := by
  cases given with
  | nil =>
    have hnil : ¬NamesNoLevel [] := by
      decide
    exact iff_of_false (not_namesNoLevel_lowerName l) hnil
  | cons c cs => rfl

theorem LogSetup.configure_error_iff (level : Text) (json : Bool) :
    (∃ e, configure level json [] = .error e) ↔ Level.NamesNoLevel level := by
  rw [← Level.threshold_error_iff]
  unfold configure
  cases Level.threshold level with
  | error e => exact iff_of_true ⟨e, rfl⟩ ⟨e, rfl⟩
  | ok root =>
    refine iff_of_false ?_ ?_
    · rintro ⟨e, ⟨⟩⟩
    · rintro ⟨e, ⟨⟩⟩

namespace Program

variable {s : Surroundings} {settings : Settings} {setup : LogSetup} {state : State}
variable {i : Invocation}

/-- What is promised of a run for what its arguments ask for. -/
structure Conduct (s : Surroundings) (settings : Settings) (i : Invocation) (r : Run) : Prop where
  /-- It ends with a code, but for three exceptions. -/
  exits_iff : (∃ code, r.ending = .exit code) ↔
    ¬Level.NamesNoLevel (i.logLevel.getD []) ∧
      (∀ path, i.command.notes? = some path → ¬StumblesOver s path) ∧
      ∀ output, Says s settings i.command output → Writable s output
  /-- There are three codes. -/
  code_le : ∀ code, r.ending = .exit code → code ≤ unusableCode
  /-- A command that needs notes prints nothing unless it succeeds. -/
  silent : i.command.notes?.isSome → r.ending ≠ .exit successCode → r.output = none
  /-- What is no list of notes is complained of. -/
  complains : ∀ code path, r.ending = .exit code → i.command.notes? = some path →
    ¬Loads s path → code = unusableCode ∧ ∃ message, r.complaint =
      some ("Cannot load notes from ".toList ++ path ++ ": ".toList ++ message)

theorem Conduct.of_exit {r : Run} {code : Nat} (hname : ¬Level.NamesNoLevel (i.logLevel.getD []))
    (hstumbles : ∀ path, i.command.notes? = some path → ¬StumblesOver s path)
    (hsaid : ∀ output, Says s settings i.command output → Writable s output)
    (hending : r.ending = .exit code) (hcode : code ≤ unusableCode)
    (hsilent : i.command.notes?.isSome → code ≠ successCode → r.output = none)
    (hcomplains : ∀ path, i.command.notes? = some path → ¬Loads s path →
      code = unusableCode ∧ ∃ message, r.complaint =
        some ("Cannot load notes from ".toList ++ path ++ ": ".toList ++ message)) :
    Conduct s settings i r where
  exits_iff := iff_of_true ⟨code, hending⟩ ⟨hname, hstumbles, hsaid⟩
  code_le := by
    intro code' hcode'
    obtain rfl := Ending.exit.inj (hending.symm.trans hcode')
    exact hcode
  silent := by
    intro hneeds hne
    refine hsilent hneeds ?_
    rintro rfl
    exact hne hending
  complains := by
    intro code' path hcode' hpath hnot
    obtain rfl := Ending.exit.inj (hending.symm.trans hcode')
    exact hcomplains path hpath hnot

/-- A run without an ending by code is the matter of one of the three exceptions. -/
theorem Conduct.of_no_exit {r : Run} (hending : ∀ code, r.ending ≠ .exit code)
    (houtput : i.command.notes?.isSome → r.output = none)
    (hcause : Level.NamesNoLevel (i.logLevel.getD []) ∨
      (∃ path, i.command.notes? = some path ∧ StumblesOver s path) ∨
      ∃ output, Says s settings i.command output ∧ ¬Writable s output) :
    Conduct s settings i r where
  exits_iff := by
    constructor
    · rintro ⟨code, hcode⟩
      exact absurd hcode (hending code)
    · rintro ⟨hname, hstumbles, hsaid⟩
      rcases hcause with hcause | ⟨path, hpath, hcause⟩ | ⟨output, houtput, hcause⟩
      · exact absurd hcause hname
      · exact absurd hcause (hstumbles path hpath)
      · exact absurd (hsaid output houtput) hcause
  code_le := fun code hcode => absurd hcode (hending code)
  silent := fun hneeds _ => houtput hneeds
  complains := fun code _ hcode => absurd hcode (hending code)

/-- Where no argument has an undecoded byte and the output stream takes every character, two
exceptions are left. -/
theorem Conduct.exits_iff_of_plain {r : Run} (h : Conduct s settings i r)
    (hdecoded : ∀ c, s.undecoded c = false) (hencoded : ∀ c, s.encodes c = true) :
    (∃ code, r.ending = .exit code) ↔
      ¬Level.NamesNoLevel (i.logLevel.getD []) ∧
        ∀ path, i.command.notes? = some path → ¬StumblesOver s path := by
  rw [h.exits_iff]
  refine and_congr_right fun _ => and_iff_left ?_
  intro output _
  exact ⟨fun t _ c _ => hdecoded c, fun c _ => hencoded c⟩

/-- Commands that need notes say only what becomes JSON. -/
theorem Says.printable?_eq_none {command : Command} {output : Output}
    (h : Says s settings command output) (hneeds : command.notes?.isSome) :
    output.printable? s = none := by
  cases h with
  | verdict query | completions hnotes query => rfl
  | answer hnotes hquery hlimit caseSensitive noBody => rfl
  | help => cases hneeds

/-- A command that says something ends with a code if that can be printed. -/
theorem conduct_of_says (hname : ¬Level.NamesNoLevel (i.logLevel.getD []))
    (hstate : HasEngine state (.create settings none)) {output : Output}
    (h : Says s settings i.command output) :
    Conduct s settings i (perform s settings setup state i.command) := by
  have hloads : ∀ path, i.command.notes? = some path → Loads s path :=
    fun path hpath => h.loads hpath
  obtain ⟨state', code, hcode, hneeds, hrun⟩ := perform_of_says hstate h
  rw [hrun]
  rcases print_cases s setup state' code output with
    ⟨hwritable, hending⟩ | ⟨hwritable, error, hending, houtput⟩
  · refine .of_exit hname (fun path hpath => (hloads path hpath).not_stumblesOver) ?_ hending
      (Nat.le_succ_of_le hcode) (fun hsome hne => absurd (hneeds hsome) hne)
      (fun path hpath hnot => absurd (hloads path hpath) hnot)
    intro other hother
    rwa [hother.unique h]
  · refine .of_no_exit ?_ ?_ (.inr (.inr ⟨output, h, hwritable⟩))
    · intro code'
      rw [hending]
      rintro ⟨⟩
    · intro hsome
      rw [houtput, h.printable?_eq_none hsome]

/-- A command that says nothing complains, or breaks off for its notes. -/
theorem conduct_of_silent (hname : ¬Level.NamesNoLevel (i.logLevel.getD []))
    (hstate : HasEngine state (.create settings none))
    (h : ∀ output, ¬Says s settings i.command output) :
    Conduct s settings i (perform s settings setup state i.command) := by
  have hsaid : ∀ output, Says s settings i.command output → Writable s output :=
    fun output houtput => absurd houtput (h output)
  obtain ⟨path, hpath, hcases⟩ := perform_of_silent hstate h
  -- There is one path, so what holds of it holds of every path that the command needs.
  have hall {P : Text → Prop} (hP : P path) (other : Text)
      (hother : i.command.notes? = some other) : P other := by
    obtain rfl := Option.some.inj (hpath.symm.trans hother)
    exact hP
  rcases hcases with ⟨hloads, state', code, complaint, hcode, hrun⟩ |
    ⟨-, hstumbles, message, hrun⟩ | ⟨hstumbles, state', b, hrun⟩
  · rw [hrun]
    exact .of_exit hname (hall hloads.not_stumblesOver) hsaid rfl hcode (fun _ _ => rfl)
      (hall fun hnot => absurd hloads hnot)
  · rw [hrun]
    exact .of_exit hname (hall hstumbles) hsaid rfl (Nat.le_refl _) (fun _ _ => rfl)
      (hall fun _ => ⟨rfl, message, rfl⟩)
  · rw [hrun]
    refine .of_no_exit ?_ (fun _ => rfl) (.inr (.inl ⟨path, hpath, hstumbles⟩))
    rintro code ⟨⟩

/-- The run of arguments and settings that can be read, with a level that can be chosen. -/
theorem run_eq_perform {arguments : List Text}
    (hread : Invocation.read arguments = .ok i)
    (hsettings : Settings.load ⟨[], s.environment, s.settingsFile⟩ = .ok settings)
    (hsetup : LogSetup.configure (if (i.logLevel.getD []).isEmpty then settings.logLevel.lowerName
      else i.logLevel.getD []) settings.logJson [] = .ok setup) :
    run s arguments = perform s settings setup ⟨.start [.create settings none], []⟩ i.command := by
  unfold run
  simp only [hread, hsettings, hsetup]

/-- Every run whose arguments and settings can be read keeps what is promised. The arguments are any
texts, and any of their characters may stand for bytes that are part of no character. -/
theorem run_conduct (s : Surroundings) {arguments : List Text}
    (hread : Invocation.read arguments = .ok i)
    (hsettings : Settings.load ⟨[], s.environment, s.settingsFile⟩ = .ok settings) :
    Conduct s settings i (run s arguments) := by
  have hchosen := Level.namesNoLevel_chosen settings.logLevel (i.logLevel.getD [])
  cases hsetup : LogSetup.configure (if (i.logLevel.getD []).isEmpty
      then settings.logLevel.lowerName else i.logLevel.getD []) settings.logJson [] with
  | error e =>
    have hrun : run s arguments = .only (.noLogging e) := by
      unfold run
      simp only [hread, hsettings, hsetup]
    have hname := (LogSetup.configure_error_iff _ _).1 ⟨e, hsetup⟩
    rw [hrun]
    refine .of_no_exit ?_ (fun _ => rfl) (.inl (hchosen.1 hname))
    rintro code ⟨⟩
  | ok setup =>
    have hname : ¬Level.NamesNoLevel (i.logLevel.getD []) := by
      intro hname
      obtain ⟨e, he⟩ := (LogSetup.configure_error_iff _ settings.logJson).2 (hchosen.2 hname)
      rw [hsetup] at he
      cases he
    rw [run_eq_perform hread hsettings hsetup]
    by_cases hsaid : ∃ output, Says s settings i.command output
    · obtain ⟨output, houtput⟩ := hsaid
      exact conduct_of_says hname (hasEngine_start settings) houtput
    · exact conduct_of_silent hname (hasEngine_start settings) (not_exists.1 hsaid)

/-- A number is no note. It is complained of, and a search in it prints nothing. -/
theorem run_conduct_number :
    let s : Surroundings := ⟨[], none, fun _ => .ok "[5]".toUTF8, ⟨fun _ => [], fun _ => []⟩,
      fun _ => false, fun _ => true⟩
    let arguments := ["search".toList, "notes.json".toList, "plan".toList]
    let r := run s arguments
    Invocation.read arguments =
        .ok ⟨none, .search "notes.json".toList "plan".toList none false false⟩ ∧
      r.ending = .exit unusableCode ∧ r.output = none := by
  intro s arguments r
  have hread : Invocation.read arguments =
      .ok ⟨none, .search "notes.json".toList "plan".toList none false false⟩ := rfl
  have hsettings : Settings.load ⟨[], s.environment, s.settingsFile⟩ =
      .ok ⟨50, false, 100, 10, "default".toList, .info, true⟩ := rfl
  have hload : load s "notes.json".toList = .ok ([Json.int 5].map Datum.ofJson) :=
    load_of_text rfl (by rfl) rfl
  have hloads : ¬Loads s "notes.json".toList := by
    refine not_loads_of_mem hload List.mem_cons_self ?_
    rintro ⟨n, ⟨⟩⟩
  have hstumbles : ¬StumblesOver s "notes.json".toList := by
    rw [stumblesOver_iff hload]
    rintro ⟨b, ⟨⟩⟩
  have hsilent : ∀ output, ¬Says s ⟨50, false, 100, 10, "default".toList, .info, true⟩
      (.search "notes.json".toList "plan".toList none false false) output :=
    fun output houtput => hloads (houtput.loads rfl)
  have hconduct := run_conduct s hread hsettings
  obtain ⟨code, hcode⟩ : ∃ code, r.ending = .exit code := by
    refine hconduct.exits_iff.2 ⟨by decide, ?_, fun output houtput => absurd houtput (hsilent _)⟩
    rintro path ⟨⟩
    exact hstumbles
  obtain ⟨rfl, -⟩ := hconduct.complains code _ hcode rfl hloads
  refine ⟨hread, hcode, hconduct.silent rfl ?_⟩
  rw [hcode]
  rintro ⟨⟩

/-- Tags that are a number, the name of a format given for a level, and an undecoded byte in a query
that finds a note leave the program without a code. -/
theorem run_without_code :
    let s (file : String) : Surroundings :=
      ⟨[], none, fun _ => .ok file.toUTF8, ⟨fun _ => [], fun _ => []⟩, (· == '\ue000'),
        fun _ => true⟩
    (∃ b, (run (s "[\x7b\"id\": \"a\", \"tags\": 5\x7d]")
      ["search".toList, "notes.json".toList, "a".toList]).ending = .broken (.broken b)) ∧
    (run (s "") ["--log-level".toList, "BASIC_FORMAT".toList, "syntax".toList]).ending =
      .noLogging .isFormat ∧
    (run (s "[\x7b\"id\": \"a\"\x7d]")
      ["search".toList, "notes.json".toList, "NOT \ue000".toList]).ending =
        .unprinted .undecoded := by
  intro s
  have hsettings (file : String) :
      Settings.load ⟨[], (s file).environment, (s file).settingsFile⟩ =
        .ok ⟨50, false, 100, 10, "default".toList, .info, true⟩ := rfl
  have hsetup : LogSetup.configure "info".toList true [] = .ok ⟨20, true, []⟩ := rfl
  refine ⟨?_, rfl, ?_⟩
  · have hread : Invocation.read ["search".toList, "notes.json".toList, "a".toList] =
        .ok ⟨none, .search "notes.json".toList "a".toList none false false⟩ := rfl
    -- JSON values cannot be compared, so the kernel is asked for the tags that matter alone.
    have hentries : ((Json.read? "[\x7b\"id\": \"a\", \"tags\": 5\x7d]".toList).bind
        entries?).any (fun entries =>
          entries.head?.any fun j => (j.get? "tags").any Json.isIllegible) = true := by
      decide +kernel
    have hstumbles : StumblesOver (s "[\x7b\"id\": \"a\", \"tags\": 5\x7d]")
        "notes.json".toList := by
      obtain ⟨entries, hsome, hfirst⟩ := (Option.any_eq_true _ _).1 hentries
      obtain ⟨j, hjson, hlist⟩ := Option.bind_eq_some_iff.1 hsome
      obtain ⟨first, hhead, htags⟩ := (Option.any_eq_true _ _).1 hfirst
      obtain ⟨rest, rfl⟩ := List.head?_eq_some_iff.1 hhead
      obtain ⟨tags, htags⟩ := (Option.any_eq_true _ _).1 htags
      exact ⟨_, load_of_text rfl hjson hlist, [], first, rest, rfl, by simp, tags, htags⟩
    rw [run_eq_perform hread (hsettings _) hsetup, perform]
    exact ending_of_stumblesOver (hasEngine_start _) hstumbles
  · have hread : Invocation.read ["search".toList, "notes.json".toList, "NOT \ue000".toList] =
        .ok ⟨none, .search "notes.json".toList "NOT \ue000".toList none false false⟩ := rfl
    have hgives : Gives (s "[\x7b\"id\": \"a\"\x7d]") "notes.json".toList
        [⟨['a'], [], [], [], none, none⟩] :=
      gives_of_text rfl (by decide +kernel)
    have hquery : Parsed.ofText "NOT \ue000".toList =
        .query (.negation (.leaf .anywhere ['\ue000'])) := by
      decide +kernel
    rw [run_eq_perform hread (hsettings _) hsetup]
    have hfound : (Tree.negation (.leaf .anywhere ['\ue000'])).selects
        (Snapshot.build [⟨['a'], [], [], [], none, none⟩] 1).notes
        (.ofSensitive (false || false)) ≠ [] := by
      decide +kernel
    have hmem : '\ue000' ∈ "NOT \ue000".toList := by
      decide
    exact ending_of_undecoded (hasEngine_start _) hgives hquery (by decide) hfound hmem rfl

end Program

end NoteQuery

import NoteQuery.Cli.Invocation
import NoteQuery.Engine.Session
import NoteQuery.Json.Printer
import NoteQuery.Json.Reader
import NoteQuery.Telemetry.LogLine

/-!
# The command-line program

`Program.run` says what the program does with its arguments in given surroundings: how it ends,
what it prints, and what it logs. Every command that needs notes reads them first; a search then
checks its query, and after that its options.

An argument is made of bytes, and not all bytes are those of a text. A byte that is part of no
character stands in its argument as a character that is kept for such bytes and that no file holds;
`Surroundings.undecoded` tells which ones those are. The program handles them as any other character
until it prints.
-/

set_option autoImplicit false

namespace NoteQuery

namespace Program

/-- What surrounds the program. -/
structure Surroundings where
  environment : List (Text × Text)
  settingsFile : Option Text
  readFile : Text → Except FileError ByteArray
  ids : IdSource
  /-- Whether a character stands for a byte of an argument that is part of no character. -/
  undecoded : Char → Bool
  /-- Whether the output stream has bytes for a character. -/
  encodes : Char → Bool

/-! ## Loading notes -/

/-- Why no notes can be loaded. -/
inductive LoadError where
  | file (error : FileError)
  | notJson
  | notArray
  | refused (refusal : Intake.Refusal)

def LoadError.message (path : Text) : LoadError → Text
  | .file e => e.message path
  | .notJson => "not valid JSON".toList
  | .notArray => path ++ " must contain a JSON array of notes".toList
  | .refused r => r.message

/-- The entries of the list that JSON holds: the list itself, or the member `notes` of an object,
which may be left out. -/
def entries? : Json → Option (List Json)
  | .arr es => some es
  | .obj ms =>
    match getMember? "notes".toList ms with
    | none => some []
    | some (.arr es) => some es
    | some _ => none
  | _ => none

def decode? (bytes : ByteArray) : Option Json :=
  (Text.ofUtf8? bytes).bind Json.read?

def load (s : Surroundings) (path : Text) : Except LoadError (List Datum) :=
  match s.readFile path with
  | .error e => .error (.file e)
  | .ok bytes =>
    match decode? bytes with
    | none => .error .notJson
    | some j =>
      match entries? j with
      | none => .error .notArray
      | some es => .ok (es.map Datum.ofJson)

/-! ## What the program does -/

/-- What is printed. -/
inductive Output where
  | json (reply : Reply)
  | lines (lines : List Text)

/-- The text of what is printed, after a search of `elapsed` milliseconds. -/
def Output.render (elapsed : Float) : Output → Text
  | .json reply => (Json.ofReply elapsed reply).render Json.indented ++ ['\n']
  | .lines ls => ls.flatMap (· ++ ['\n'])

def Output.texts : Output → List Text
  | .json reply => (Json.ofReply 0.0 reply).texts
  | .lines _ => []

/-- Why something cannot be printed. -/
inductive PrintError where
  /-- What is to become JSON is not made of characters alone. -/
  | undecoded
  /-- The output stream has no bytes for a character. -/
  | unencodable (c : Char)
  deriving DecidableEq, Repr

/-- The wording of the error, without what an encoding adds to it. -/
def PrintError.message : PrintError → Text
  | .undecoded => "str is not valid UTF-8: surrogates not allowed".toList
  | .unencodable c => "codec can't encode character ".toList ++ Text.shown [c]

/-- Why something cannot be printed as a whole. The time that a search took adds only digits. -/
def Output.error? (s : Surroundings) (output : Output) : Option PrintError :=
  if output.texts.any (·.any s.undecoded) then some .undecoded
  else ((output.render 0.0).find? fun c => !s.encodes c).map .unencodable

/-- What is printed of something that cannot be printed as a whole: lines up to the first that
cannot, and nothing of JSON. -/
def Output.printable? (s : Surroundings) : Output → Option Output
  | .json _ => none
  | .lines ls => some (.lines (ls.takeWhile (·.all s.encodes)))

/-- How the program ends. -/
inductive Ending where
  | exit (code : Nat)
  /-- Before it began, for its arguments. -/
  | stopped (stop : Arguments.Stop)
  /-- Because its settings or notes cannot be looked into. -/
  | broken (refusal : Intake.Refusal)
  | noLogging (error : Level.ThresholdError)
  /-- Because it cannot print what it has to say. -/
  | unprinted (error : PrintError)

/-- What the program does. -/
structure Run where
  ending : Ending
  output : Option Output
  /-- The line that it writes to the error stream, if any. -/
  complaint : Option Text
  /-- The events that it logs, each with the trace context of the moment. -/
  logged : List (Event × Context)
  logSetup : LogSetup

def Run.only (ending : Ending) : Run := ⟨ending, none, none, [], ⟨0, false, []⟩⟩

/-- The state of a run: the session, and what was logged. -/
structure State where
  session : Session
  logged : List (Event × Context)

/-- One action on the one engine of the program. What passes the threshold is logged in the trace
context that the action leaves. -/
def act (s : Surroundings) (setup : LogSetup) (state : State) (action : EngineAction) :
    State × Except Intake.Refusal Reply :=
  let (session, report) := state.session.step ⟨s.ids, none⟩ 0 action
  let events := report.events.filter fun e => setup.root ≤ e.level.number
  if events.isEmpty then (⟨session, state.logged⟩, report.result)
  else if setup.json then
    let (tracing, context) := session.tracing.read s.ids
    (⟨{ session with tracing }, state.logged ++ events.map (·, context)⟩, report.result)
  else (⟨session, state.logged ++ events.map (·, [])⟩, report.result)

/-- The exit code of a run that did what it was asked for. -/
def successCode : Nat := 0

/-- The exit code of a run with a rejected query. -/
def invalidCode : Nat := 1

/-- The exit code of a run that was given something that cannot be used. -/
def unusableCode : Nat := 2

/-- A run that ends with a complaint. -/
def complain (setup : LogSetup) (state : State) (code : Nat) (complaint : Text) : Run :=
  ⟨.exit code, none, some complaint, state.logged, setup⟩

/-- A run that ends with output. -/
def print (s : Surroundings) (setup : LogSetup) (state : State) (code : Nat) (output : Output) :
    Run :=
  match output.error? s with
  | none => ⟨.exit code, some output, none, state.logged, setup⟩
  | some error => ⟨.unprinted error, output.printable? s, none, state.logged, setup⟩

/-- A run that ends because something could not be looked into. -/
def giveUp (setup : LogSetup) (state : State) (refusal : Intake.Refusal) : Run :=
  ⟨.broken refusal, none, none, state.logged, setup⟩

def answer (s : Surroundings) (setup : LogSetup) (state : State) (action : EngineAction) : Run :=
  match act s setup state action with
  | (state, .ok reply) => print s setup state successCode (.json reply)
  | (state, .error refusal) => giveUp setup state refusal

/-- Go on with the notes under a path. -/
def withNotes (s : Surroundings) (setup : LogSetup) (state : State) (path : Text)
    (next : State → Run) : Run :=
  let refuse (e : LoadError) : Run := complain setup state unusableCode
    ("Cannot load notes from ".toList ++ path ++ ": ".toList ++ e.message path)
  match load s path with
  | .error e => refuse e
  | .ok entries =>
    match act s setup state (.load (entries.map .datum)) with
    | (state, .ok _) => next state
    | (_, .error (.invalid title problems)) => refuse (.refused (.invalid title problems))
    | (state, .error refusal) => giveUp setup state refusal

/-- Check a query, and go on with its verdict. -/
def withVerdict (s : Surroundings) (setup : LogSetup) (state : State) (query : Text)
    (next : State → Verdict → Run) : Run :=
  next (act s setup state (.validate query)).1 (Engine.validate query)

/-- The options of a search, as they are handed to the engine to be checked. -/
def optionsFor (settings : Settings) (maxResults : Option Int) (caseSensitive noBody : Bool) :
    Datum :=
  .record [("max_results".toList, .int (maxResults.getD settings.maxResults)),
    ("include_body".toList, .bool !noBody),
    ("case_sensitive".toList, .bool (caseSensitive || settings.caseSensitive))]

/-- Search the notes that are there, with a query that is one and options that are. -/
def search (s : Surroundings) (settings : Settings) (setup : LogSetup) (query : Text)
    (maxResults : Option Int) (caseSensitive noBody : Bool) (state : State) : Run :=
  withVerdict s setup state query fun state verdict =>
    match verdict.error with
    | some error => complain setup state invalidCode ("Invalid query: ".toList ++ error)
    | none =>
      let options := optionsFor settings maxResults caseSensitive noBody
      match (Intake.options options).result "SearchOptions" with
      | .error r => complain setup state unusableCode
          ("Invalid search options: ".toList ++ r.message)
      | .ok _ => answer s setup state (.search query (some options) none)

def perform (s : Surroundings) (settings : Settings) (setup : LogSetup) (state : State) :
    Command → Run
  | .validate query =>
    withVerdict s setup state query fun state verdict =>
      print s setup state (if verdict.isValid then successCode else invalidCode)
        (.json (.verdict verdict))
  | .help => print s setup state successCode (.lines (syntaxHelp.map String.toList))
  | .suggest path query =>
    withNotes s setup state path fun state => answer s setup state (.suggest query)
  | .search path query maxResults caseSensitive noBody =>
    withNotes s setup state path
      (search s settings setup query maxResults caseSensitive noBody)

/-- What the program does with its arguments. -/
def run (s : Surroundings) (arguments : List Text) : Run :=
  match Invocation.read arguments with
  | .error stop => .only (.stopped stop)
  | .ok invocation =>
    match Settings.load ⟨[], s.environment, s.settingsFile⟩ with
    | .error refusal => .only (.broken refusal)
    | .ok settings =>
      let given := invocation.logLevel.getD []
      let level := if given.isEmpty then settings.logLevel.lowerName else given
      match LogSetup.configure level settings.logJson [] with
      | .error e => .only (.noLogging e)
      | .ok setup =>
        perform s settings setup ⟨.start [.create settings none], []⟩ invocation.command

end Program

end NoteQuery

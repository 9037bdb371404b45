import NoteQuery.Intake.Scalar
import NoteQuery.Settings.EnvFile
import NoteQuery.Telemetry.Level
import NoteQuery.Text.Lower

/-!
# Settings

The settings of a search engine come, in this order, from what a caller gives, from environment
variables and from a file. Variables carry a common mark in front of the name of a setting, and
case does not count in any of the names. A setting that none of the three mentions has its default.
-/

set_option autoImplicit false

namespace NoteQuery

/-- The settings of a search engine. -/
structure Settings where
  maxResults : Int
  /-- Whether case counts in a search whose caller does not say. -/
  caseSensitive : Bool
  excerptLength : Int
  /-- The most completions of a partial query. -/
  suggestionLimit : Int
  engineName : Text
  logLevel : Level
  logJson : Bool
  deriving DecidableEq, Repr

namespace Level

def lowerName (level : Level) : Text :=
  level.name.map Char.toLower

def ofLowerName? (name : Text) : Option Level :=
  [Level.debug, .info, .warning, .error, .critical].find? (·.lowerName == name)

end Level

namespace Settings

def names : List Text :=
  ["default_max_results", "case_sensitive", "body_excerpt_length", "suggestion_limit",
    "engine_name", "log_level", "log_json"].map String.toList

/-- What stands in front of the name of a setting in the name of a variable, in lower case. -/
def variableMark : Text := "zettel_search_".toList

/-- Where settings come from. -/
structure Sources where
  given : List (Text × Datum)
  environment : List (Text × Text)
  file : Option Text

namespace Sources

def given? (s : Sources) (name : Text) : Option Datum :=
  s.given.lookup name <|> (s.given.find? fun m => Text.lower m.1 == name).map (·.2)

/-- The value of the last variable that has a name when case does not count. -/
def assigned? {α : Type} (entries : List (Text × α)) (name : Text) : Option α :=
  (entries.reverse.find? fun v => Text.lower v.1 == variableMark ++ name).map (·.2)

def environment? (s : Sources) (name : Text) : Option Datum :=
  (assigned? s.environment name).map .text

def file? (s : Sources) (name : Text) : Option Datum :=
  s.file.bind fun t =>
    ((assigned? (EnvFile.resolve s.environment (EnvFile.read t)) name).join).map .text

def lookup? (s : Sources) (name : Text) : Option Datum :=
  s.given? name <|> s.environment? name <|> s.file? name

def members (s : Sources) : List (Text × Datum) :=
  names.filterMap fun name => (s.lookup? name).map (name, ·)

end Sources

/-- A level by its name, in any case and with white space around it. -/
def level (d : Datum) : Intake.Check Level :=
  (Intake.text d).andThen fun t =>
    match Level.ofLowerName? (Text.lower (Text.trim t)) with
    | some l => .accepted l
    | none => .flaw (.rejected ("Unsupported log level: ".toList ++ t))

def check (ms : List (Text × Datum)) : Intake.Check Settings :=
  Settings.mk <$> Intake.optional "default_max_results" 50 (Intake.integerFrom 1) ms <*>
    Intake.optional "case_sensitive" false Intake.truth ms <*>
    Intake.optional "body_excerpt_length" 100 (Intake.integerFrom 10) ms <*>
    Intake.optional "suggestion_limit" 10 (Intake.integerFrom 1) ms <*>
    Intake.optional "engine_name" "default".toList Intake.nonEmptyText ms <*>
    Intake.optional "log_level" .info level ms <*> Intake.optional "log_json" true Intake.truth ms

def load (s : Sources) : Except Intake.Refusal Settings :=
  (check s.members).result "Settings"

end Settings

def Json.ofSettings (s : Settings) : Json :=
  .object [("default_max_results", .int s.maxResults), ("case_sensitive", .bool s.caseSensitive),
    ("body_excerpt_length", .int s.excerptLength), ("suggestion_limit", .int s.suggestionLimit),
    ("engine_name", .str s.engineName), ("log_level", .str s.logLevel.lowerName),
    ("log_json", .bool s.logJson)]

end NoteQuery

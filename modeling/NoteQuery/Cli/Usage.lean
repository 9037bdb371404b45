import NoteQuery.Cli.Invocation

/-!
# How to use the program

The texts that the program shows when it is asked for help, or when its arguments are wrong.
-/

set_option autoImplicit false

namespace NoteQuery

namespace Invocation

/-- How the program is used. -/
def usage : String :=
  "usage: zettel-search [-h] [--log-level LOG_LEVEL]\n" ++
  "                     \x7bsearch,validate,suggest,syntax\x7d ..."

namespace CommandName

def usage : CommandName → String
  | .search => "usage: zettel-search search [-h] [--max-results MAX_RESULTS]\n" ++
      "                            [--case-sensitive] [--no-body]\n" ++
      "                            notes query"
  | .validate => "usage: zettel-search validate [-h] query"
  | .suggest => "usage: zettel-search suggest [-h] notes query"
  | .help => "usage: zettel-search syntax [-h]"

def details : CommandName → List String
  | .search => ["positional arguments:",
      "  notes                 JSON array of notes",
      "  query                 Advanced query text",
      "",
      "options:",
      "  -h, --help            show this help message and exit",
      "  --max-results MAX_RESULTS",
      "                        Result cap",
      "  --case-sensitive      Disable case folding",
      "  --no-body             Omit note bodies from results"]
  | .validate => ["positional arguments:",
      "  query       Advanced query text",
      "",
      "options:",
      "  -h, --help  show this help message and exit"]
  | .suggest => ["positional arguments:",
      "  notes       JSON array of notes (tag vocabulary)",
      "  query       Partial query text",
      "",
      "options:",
      "  -h, --help  show this help message and exit"]
  | .help => ["options:",
      "  -h, --help  show this help message and exit"]

end CommandName

/-- The lines on what the program takes. -/
def details : List String := [
  "Advanced boolean search over notes",
  "",
  "positional arguments:",
  "  \x7bsearch,validate,suggest,syntax\x7d",
  "    search              Run a query against a notes file",
  "    validate            Check query syntax",
  "    suggest             Complete a partial query",
  "    syntax              Print the query syntax reference",
  "",
  "options:",
  "  -h, --help            show this help message and exit",
  "  --log-level LOG_LEVEL",
  "                        Override ZETTEL_SEARCH_LOG_LEVEL"]

def ofProgram? (name : Text) : Option CommandName :=
  CommandName.all.find? (·.grammar.program == name)

def usageOf (name : Text) : String :=
  ((ofProgram? name).map CommandName.usage).getD usage

def helpOn (name : Text) : List String :=
  usageOf name :: "" :: ((ofProgram? name).map CommandName.details).getD details

end Invocation

end NoteQuery

import NoteQuery.Cli.Arguments
import NoteQuery.Cli.FilePath

/-!
# What the command line asks for
-/

set_option autoImplicit false

namespace NoteQuery

/-- A command with its operands and options. -/
inductive Command where
  | search (notes query : Text) (maxResults : Option Int) (caseSensitive noBody : Bool)
  | validate (query : Text)
  /-- Complete a partial query with the tags of the notes in a file. -/
  | suggest (notes query : Text)
  | help
  deriving DecidableEq, Repr

def Command.notes? : Command → Option Text
  | .search notes _ _ _ _ | .suggest notes _ => some notes
  | .validate _ | .help => none

/-- A command with what goes for all commands. -/
structure Invocation where
  logLevel : Option Text
  command : Command
  deriving DecidableEq, Repr

namespace Invocation

open Arguments

/-- The names of the commands. -/
inductive CommandName where
  | search
  | validate
  | suggest
  | help
  deriving DecidableEq, Repr

namespace CommandName

def all : List CommandName := [.search, .validate, .suggest, .help]

def word : CommandName → Text
  | .search => "search".toList
  | .validate => "validate".toList
  | .suggest => "suggest".toList
  | .help => "syntax".toList

def ofWord? (t : Text) : Option CommandName :=
  all.find? (·.word == t)

end CommandName

def program : Text := "zettel-search".toList

def helpOption : OptionSpec := ⟨["-h".toList, "--help".toList], .help⟩

def option (name : String) (kind : OptionKind) : OptionSpec := ⟨[name.toList], kind⟩

/-- The grammar of what stands in front of a command. -/
def grammar : Grammar :=
  ⟨program, [helpOption, option "--log-level" .text], ["command".toList], true⟩

namespace CommandName

def options : CommandName → List OptionSpec
  | .search => [helpOption, option "--max-results" .integer, option "--case-sensitive" .flag,
      option "--no-body" .flag]
  | _ => [helpOption]

def operands : CommandName → List Text
  | .search | .suggest => ["notes".toList, "query".toList]
  | .validate => ["query".toList]
  | .help => []

def grammar (c : CommandName) : Grammar :=
  ⟨program ++ ' ' :: c.word, c.options, c.operands, false⟩

def command (u : Usage) : CommandName → Command
  | .search => .search (FilePath.normalize (u.operand 0)) (u.operand 1)
      ((u.value? "--max-results").bind wholeNumber?) (u.value? "--case-sensitive").isSome
      (u.value? "--no-body").isSome
  | .validate => .validate (u.operand 0)
  | .suggest => .suggest (FilePath.normalize (u.operand 0)) (u.operand 1)
  | .help => .help

end CommandName

def read (arguments : List Text) : Except Stop Invocation := do
  let u ← Arguments.read grammar arguments
  match CommandName.ofWord? (u.operand 0) with
  | none => throw (.misuse program (.unknownChoice "command".toList (u.operand 0)
      (CommandName.all.map CommandName.word)))
  | some name =>
    let v ← Arguments.read name.grammar (u.operands.drop 1)
    let leftOver := u.leftOver ++ v.leftOver
    if !leftOver.isEmpty then throw (.misuse program (.leftOver leftOver))
    return ⟨u.value? "--log-level", name.command v⟩

end Invocation

end NoteQuery

import NoteQuery.Text.Upper

/-!
# Log levels

A level is a number with a name. A threshold is chosen by a name in any case; an unknown name
means the level of information. Two more names are known that stand for no level, and choosing
one of them is an error.
-/

set_option autoImplicit false

namespace NoteQuery

/-- The levels at which something can be logged. -/
inductive Level where
  | debug
  | info
  | warning
  | error
  | critical
  deriving DecidableEq, Repr

namespace Level

def name : Level → Text
  | .debug => "DEBUG".toList
  | .info => "INFO".toList
  | .warning => "WARNING".toList
  | .error => "ERROR".toList
  | .critical => "CRITICAL".toList

def number : Level → Nat
  | .debug => 10
  | .info => 20
  | .warning => 30
  | .error => 40
  | .critical => 50

def thresholds : List (Text × Nat) := [
  ("CRITICAL".toList, 50), ("FATAL".toList, 50), ("ERROR".toList, 40), ("WARNING".toList, 30),
  ("WARN".toList, 30), ("INFO".toList, 20), ("DEBUG".toList, 10), ("NOTSET".toList, 0)]

/-- Why no threshold can be chosen. -/
inductive ThresholdError where
  | isFormat
  | isTable
  deriving DecidableEq, Repr

def lineFormat : Text :=
  "%(levelname)s:%(name)s:%(message)s".toList

def ThresholdError.message : ThresholdError → Text
  | .isFormat => "Unknown level: '".toList ++ lineFormat ++ "'".toList
  | .isTable => "Level not an integer or a valid string: ".toList ++
      "\x7b'%': (<class 'logging.PercentStyle'>, '".toList ++ lineFormat ++
      "'), '\x7b': (<class 'logging.StrFormatStyle'>, ".toList ++
      "'\x7blevelname\x7d:\x7bname\x7d:\x7bmessage\x7d'), ".toList ++
      "'$': (<class 'logging.StringTemplateStyle'>, ".toList ++
      "'$\x7blevelname\x7d:$\x7bname\x7d:$\x7bmessage\x7d')\x7d".toList

def threshold (name : Text) : Except ThresholdError Nat :=
  let u := Text.upper name
  if u = "BASIC_FORMAT".toList then .error .isFormat
  else if u = "_STYLES".toList then .error .isTable
  else .ok ((thresholds.lookup u).getD 20)

end Level

/-- How logging is set up. -/
structure LogSetup where
  /-- The threshold of all loggers without their own. -/
  root : Nat
  json : Bool
  loggers : List (Text × Nat)
  deriving DecidableEq, Repr

namespace LogSetup

def configure (level : Text) (json : Bool) (loggers : List (Text × Text)) :
    Except Level.ThresholdError LogSetup := do
  let root ← Level.threshold level
  let own ← loggers.mapM fun l => do return (l.1, ← Level.threshold l.2)
  return ⟨root, json, own⟩

end LogSetup

end NoteQuery

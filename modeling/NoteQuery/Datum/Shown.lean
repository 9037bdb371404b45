import NoteQuery.Datum.Basic
import NoteQuery.Text.Quoted

/-!
# Loosely typed values as messages show them
-/

set_option autoImplicit false

namespace NoteQuery.Datum

mutual

/-- A value as messages show it: texts stand in quotes, collections in their brackets. -/
def shown : Datum → Text
  | .null => "None".toList
  | .bool true => "True".toList
  | .bool false => "False".toList
  | .int i => Text.ofInt i
  | .float x => Decimal.ofFloat x
  | .text t => Text.shown t
  | .bytes b => Text.shownBytes b
  | .list es => '[' :: Text.join ", ".toList (shownList es) ++ [']']
  | .tuple [e] => '(' :: shown e ++ ",)".toList
  | .tuple es => '(' :: Text.join ", ".toList (shownList es) ++ [')']
  | .set false [] => "set()".toList
  | .set false es => '\x7b' :: Text.join ", ".toList (shownList es) ++ ['\x7d']
  | .set true [] => "frozenset()".toList
  | .set true es => "frozenset(\x7b".toList ++ Text.join ", ".toList (shownList es) ++
      "\x7d)".toList
  | .record ms => '\x7b' :: Text.join ", ".toList (shownMembers ms) ++ ['\x7d']
  | .failure _ _ shown | .other _ _ shown => shown

def shownList : List Datum → List Text
  | [] => []
  | d :: ds => shown d :: shownList ds

def shownMembers : List (Text × Datum) → List Text
  | [] => []
  | (name, d) :: rest => (Text.shown name ++ ": ".toList ++ shown d) :: shownMembers rest

end

/-- A value as plain text: a text is itself, an error its message, and what no other case covers
has a plain text of its own. -/
def plain : Datum → Text
  | .text t => t
  | .failure _ message _ => message
  | .other _ plain _ => plain
  | d => shown d

end NoteQuery.Datum

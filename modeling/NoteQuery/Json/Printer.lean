import NoteQuery.Decimal.Notation
import NoteQuery.Json.Basic

/-!
# JSON as text

Two layouts are in use: one line without spaces, for log lines, and one value to a line with two
spaces for each level, for people. Only the quote, the backslash and the ASCII controls are
escaped; a layout may also ask for ASCII alone, and then every other character becomes one escape
or a pair of them.
-/

set_option autoImplicit false

namespace NoteQuery.Json

/-- How a value is laid out. -/
structure Layout where
  /-- Whether every value stands on a line of its own. -/
  lines : Bool
  asciiOnly : Bool

/-- A value on one line, without spaces. -/
def compact : Layout := ⟨false, false⟩

/-- One value to a line. -/
def indented : Layout := ⟨true, false⟩

def ascii : Layout := ⟨false, true⟩

/-- The escapes of a character outside ASCII: one, or a pair beyond the first plane. -/
def escapeUnits (n : Nat) : Text :=
  if n < 0x10000 then "\\u".toList ++ Text.hex 4 n
  else
    let m := n - 0x10000
    "\\u".toList ++ Text.hex 4 (0xd800 + m / 0x400) ++
      "\\u".toList ++ Text.hex 4 (0xdc00 + m % 0x400)

def escape (asciiOnly : Bool) (c : Char) : Text :=
  if c == '"' then ['\\', '"']
  else if c == '\\' then ['\\', '\\']
  else if c == '\n' then ['\\', 'n']
  else if c == '\r' then ['\\', 'r']
  else if c == '\t' then ['\\', 't']
  else if c.toNat == 8 then ['\\', 'b']
  else if c.toNat == 12 then ['\\', 'f']
  else if c.toNat < 0x20 then "\\u".toList ++ Text.hex 4 c.toNat
  else if asciiOnly && 0x7f ≤ c.toNat then escapeUnits c.toNat
  else [c]

def quoted (asciiOnly : Bool) (t : Text) : Text :=
  '"' :: t.flatMap (escape asciiOnly) ++ ['"']

/-- The text of a number; JSON has no word for one that is not finite. -/
def ofNumber (x : Float) : Text :=
  match Decimal.Parts.ofFloat x with
  | .nan | .infinite _ => "null".toList
  | _ => Decimal.ofFloat x

/-- The break before a value `depth` levels deep. -/
def Layout.break (layout : Layout) (depth : Nat) : Text :=
  if layout.lines then '\n' :: List.replicate (2 * depth) ' ' else []

/-- What stands between a name and its value. -/
def Layout.colon (layout : Layout) : Text :=
  if layout.lines then [':', ' '] else [':']

/-- Items between two brackets, each after a break. -/
def Layout.enclose (layout : Layout) (depth : Nat) (opening closing : Char) (items : List Text) :
    Text :=
  if items.isEmpty then [opening, closing]
  else
    opening :: layout.break (depth + 1) ++ Text.join (',' :: layout.break (depth + 1)) items ++
      layout.break depth ++ [closing]

mutual

/-- The text of a value `depth` levels deep. -/
def renderAt (layout : Layout) (depth : Nat) : Json → Text
  | .null => "null".toList
  | .bool true => "true".toList
  | .bool false => "false".toList
  | .int i => Text.ofInt i
  | .float x => ofNumber x
  | .str t => quoted layout.asciiOnly t
  | .arr elements => layout.enclose depth '[' ']' (renderElements layout (depth + 1) elements)
  | .obj members => layout.enclose depth '\x7b' '\x7d' (renderMembers layout (depth + 1) members)

def renderElements (layout : Layout) (depth : Nat) : List Json → List Text
  | [] => []
  | j :: rest => renderAt layout depth j :: renderElements layout depth rest

def renderMembers (layout : Layout) (depth : Nat) : List (Text × Json) → List Text
  | [] => []
  | (name, j) :: rest =>
    (quoted layout.asciiOnly name ++ layout.colon ++ renderAt layout depth j) ::
      renderMembers layout depth rest

end

def render (layout : Layout) (j : Json) : Text :=
  renderAt layout 0 j

end NoteQuery.Json

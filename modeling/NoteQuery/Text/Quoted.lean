import NoteQuery.Text.Numeral
import NoteQuery.Text.Printable

/-!
# Texts shown in quotes

Messages show a text in quotes with its unprintable characters escaped. Single quotes are the
rule; a text with single quotes and no double ones stands in double quotes.
-/

set_option autoImplicit false

namespace NoteQuery.Text

def quoteFor (t : Text) : Char :=
  if t.contains '\'' && !t.contains '"' then '"' else '\''

/-- How one character is written between the quotes `quote`. -/
def escapeShown (quote c : Char) : Text :=
  if c == quote || c == '\\' then ['\\', c]
  else if c == '\n' then ['\\', 'n']
  else if c == '\r' then ['\\', 'r']
  else if c == '\t' then ['\\', 't']
  else if isPrintable c then [c]
  else if c.toNat < 0x100 then ['\\', 'x'] ++ hex 2 c.toNat
  else if c.toNat < 0x10000 then ['\\', 'u'] ++ hex 4 c.toNat
  else ['\\', 'U'] ++ hex 8 c.toNat

def shown (t : Text) : Text :=
  let quote := quoteFor t
  quote :: t.flatMap (escapeShown quote) ++ [quote]

/-- Bytes as messages show them: only printable ASCII stands for itself. -/
def shownBytes (bytes : List Nat) : Text :=
  let t := bytes.map Char.ofNat
  let quote := quoteFor t
  let escape (c : Char) : Text :=
    if c.toNat < 0x7f then escapeShown quote c else ['\\', 'x'] ++ hex 2 c.toNat
  'b' :: quote :: t.flatMap escape ++ [quote]

end NoteQuery.Text

/-!
# Text and its characters

A text is a list of characters, so every offset, length and slice counts characters. The module
sorts characters into the classes that the query language knows:

* *blank* characters separate words and are trimmed from the ends of texts;
* *stray* characters are the controls that are not blank; no query may hold one outside quotes;
* *delimiters* are the parentheses and the double quote;
* all others are *word* characters.

`isWord_iff` says that the four classes cover everything, and the order `before` on texts compares
them by code points, as a dictionary does.
-/

set_option autoImplicit false

namespace NoteQuery

/-- A text: its characters, in order. -/
abbrev Text := List Char

namespace Text

/-! ## Character classes -/

def isBlank (c : Char) : Bool :=
  let n := c.toNat
  (0x9 ≤ n && n ≤ 0xd) || (0x1c ≤ n && n ≤ 0x20) || n == 0x85 || n == 0xa0 || n == 0x1680 ||
    (0x2000 ≤ n && n ≤ 0x200a) || n == 0x2028 || n == 0x2029 || n == 0x202f || n == 0x205f ||
    n == 0x3000

def isControl (c : Char) : Bool :=
  c.toNat < 0x20 || (0x7f ≤ c.toNat && c.toNat < 0xa0)

/-- Whether a character is a control character that does not count as white space. -/
def isStray (c : Char) : Bool :=
  !isBlank c && isControl c

def isParen (c : Char) : Bool :=
  c == '(' || c == ')'

def isDelimiter (c : Char) : Bool :=
  isParen c || c == '"'

def isWord (c : Char) : Bool :=
  !isBlank c && !isDelimiter c && !isStray c

theorem isWord_iff (c : Char) :
    isWord c = true ↔ isBlank c = false ∧ isDelimiter c = false ∧ isStray c = false := by
  simp [isWord, and_assoc]

def isLetter (c : Char) : Bool :=
  ('a' ≤ c && c ≤ 'z') || ('A' ≤ c && c ≤ 'Z')

/-! ## Trimming and cutting -/

/-- Whether a text has no character but white space. -/
def allBlank (t : Text) : Bool :=
  t.all isBlank

def trimLeft (t : Text) : Text :=
  t.dropWhile isBlank

def trimRight (t : Text) : Text :=
  (t.reverse.dropWhile isBlank).reverse

/-- A text without the white space at its two ends. -/
def trim (t : Text) : Text :=
  trimRight (trimLeft t)

/-- The characters from offset `a` up to, not including, offset `b`. -/
def slice (t : Text) (a b : Nat) : Text :=
  (t.take b).drop a

/-- Where an offset falls in a sequence of `length` entries: one below zero counts from the end,
and nothing reaches past either end. -/
def position (length : Nat) (i : Int) : Nat :=
  if i < 0 then (i + length).toNat else min i.toNat length

/-- The characters between two offsets, either of which may count from the end. -/
def between (t : Text) (a b : Int) : Text :=
  slice t (position t.length a) (position t.length b)

/-- A text of at most `limit` characters as it is, a longer one cut there and marked with dots. -/
def clip (limit : Nat) (t : Text) : Text :=
  if limit < t.length then t.take limit ++ "...".toList else t

/-- The pieces of `parts` with `separator` between them. -/
def join (separator : Text) (parts : List Text) : Text :=
  separator.intercalate parts

def ofUtf8? (bytes : ByteArray) : Option Text :=
  (String.fromUTF8? bytes).map String.toList

/-! ## Order -/

/-- Whether a text comes before another: by the code points of the first characters that differ, or
by length. -/
def before : (s t : Text) → Bool
  | _, [] => false
  | [], _ :: _ => true
  | a :: s, b :: t => a.toNat < b.toNat || (a == b && before s t)

end Text

end NoteQuery

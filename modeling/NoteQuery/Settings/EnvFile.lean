import NoteQuery.Json.Basic

/-!
# Files of settings

A file of settings has one assignment to a line: a name, an equals sign and a value, perhaps after
the word `export`. A value in quotes may run over several lines; in double quotes the usual escapes
stand for control characters, in single quotes only quotes and backslashes are escaped. A value
without quotes ends where a blank and a `#` begin a comment. A line that makes no sense is skipped.

Once the assignments are read, `resolve` replaces every `${name}` in a value by the value of that
name, from an earlier line or from outside, and `${name:-default}` by the default where there is
none.
-/

set_option autoImplicit false

namespace NoteQuery.EnvFile

/-- A name with its value; a name that stands alone has none. -/
structure Assignment where
  name : Text
  value : Option Text
  deriving DecidableEq, Repr

/-! ## Reading -/

def unifyLineEnds : Text → Text
  | '\r' :: '\n' :: t => '\n' :: unifyLineEnds t
  | '\r' :: t => '\n' :: unifyLineEnds t
  | c :: t => c :: unifyLineEnds t
  | [] => []

def isInlineBlank (c : Char) : Bool :=
  Text.isBlank c && c != '\n' && c != '\r'

/-- A text without the white space that begins it on its line. -/
def skipInline (t : Text) : Text :=
  t.dropWhile isInlineBlank

def nextLine (t : Text) : Text :=
  (t.dropWhile (· != '\n')).drop 1

def skipExport (t : Text) : Text :=
  if "export".toList.isPrefixOf t then
    let rest := t.drop 6
    if (rest.head?.map isInlineBlank).getD false then skipInline rest else t
  else t

def name? (t : Text) : Option (Text × Text) :=
  let split (inside : Char → Bool) (t : Text) : Option (Text × Text) :=
    if (t.takeWhile inside).isEmpty then none else some (t.takeWhile inside, t.dropWhile inside)
  match t with
  | '\'' :: rest => do
    let (name, rest) ← split (· != '\'') rest
    if rest.isEmpty then none else some (name, rest.drop 1)
  | _ => split (fun c => c != '=' && c != '#' && !Text.isBlank c) t

/-- What stands in front of the closing quote, and what follows it. A quote behind a backslash does
not close, unless no other quote is left. -/
def quoted? (quote : Char) : Text → Option (Text × Text)
  | [] => none
  | [c] => if c = quote then some ([], []) else none
  | c :: d :: t =>
    if c = quote then some ([], d :: t)
    else if c = '\\' && d = quote then
      match quoted? quote t with
      | some (value, rest) => some (c :: d :: value, rest)
      | none => some ([c], t)
    else
      match quoted? quote (d :: t) with
      | some (value, rest) => some (c :: value, rest)
      | none => none

/-- The escapes in double quotes: the letter and the code of the character that it stands for. -/
def doubleEscapes : List (Char × Nat) :=
  [('\\', 92), ('\'', 39), ('"', 34), ('a', 7), ('b', 8), ('f', 12), ('n', 10), ('r', 13),
    ('t', 9), ('v', 11)]

def singleEscapes : List (Char × Nat) :=
  [('\\', 92), ('\'', 39)]

def unescape (escapes : List (Char × Nat)) : Text → Text
  | [] => []
  | [c] => [c]
  | c :: d :: t =>
    match (if c = '\\' then escapes.lookup d else none) with
    | some n => Char.ofNat n :: unescape escapes t
    | none => c :: unescape escapes (d :: t)

/-- A text up to the first `#` behind a blank. -/
def beforeComment (afterBlank : Bool) : Text → Text
  | [] => []
  | c :: t => if afterBlank && c == '#' then [] else c :: beforeComment (Text.isBlank c) t

def value? (t : Text) : Option (Text × Text) :=
  match t with
  | '\'' :: rest => (quoted? '\'' rest).map fun (v, rest) => (unescape singleEscapes v, rest)
  | '"' :: rest => (quoted? '"' rest).map fun (v, rest) => (unescape doubleEscapes v, rest)
  | _ =>
    some (Text.trimRight (beforeComment false (t.takeWhile (· != '\n'))),
      t.dropWhile (· != '\n'))

/-- What follows the end of a line, with nothing but a comment in front of it. -/
def lineEnd? (t : Text) : Option Text :=
  let t' := skipInline t
  let t' := if t'.head? = some '#' then t'.dropWhile (· != '\n') else t'
  match t' with
  | [] => some []
  | '\n' :: rest => some rest
  | _ => none

/-- What a name is given: nothing, or a value behind an equals sign. -/
def binding? (t : Text) : Option (Option Text × Text) :=
  match skipInline t with
  | '=' :: rest => (value? (skipInline rest)).map fun (v, rest) => (some v, rest)
  | rest => some (none, rest)

/-- The assignment at the front of a text, if it has one, and what follows it. Where it makes no
sense, the rest of the line in which that shows is skipped. -/
def statement (t : Text) : Option Assignment × Text :=
  let t := skipExport (t.dropWhile Text.isBlank)
  if t.head? = some '#' then (none, nextLine t)
  else
    match name? t with
    | none => (none, nextLine t)
    | some (name, afterName) =>
      match binding? afterName with
      | none => (none, nextLine (skipInline afterName))
      | some (value, afterValue) =>
        match lineEnd? afterValue with
        | some rest => (some ⟨name, value⟩, rest)
        | none => (none, nextLine afterValue)

def statements : Nat → Text → List Assignment
  | 0, _ => []
  | fuel + 1, t =>
    if t.isEmpty then []
    else
      let (found, rest) := statement t
      found.toList ++ statements fuel rest

/-- The assignments in the text of a file. Every statement takes a character at least, so the
length of the text is fuel enough. -/
def read (t : Text) : List Assignment :=
  statements t.length (unifyLineEnds t)

/-! ## Replacing references -/

/-- The name and the default of a reference, behind its opening brace, and what follows it. -/
def reference? (t : Text) : Option (Text × Text × Text) :=
  let name := t.takeWhile fun c => c != '\x7d' && c != ':'
  match t.dropWhile fun c => c != '\x7d' && c != ':' with
  | '\x7d' :: rest => some (name, [], rest)
  | ':' :: '-' :: rest =>
    match rest.dropWhile (· != '\x7d') with
    | _ :: after => some (name, rest.takeWhile (· != '\x7d'), after)
    | [] => none
  | _ => none

/-- A value with its references replaced, given fuel for each of its characters. -/
def substitute (known : Text → Option Text) : Nat → Text → Text
  | 0, _ => []
  | _ + 1, [] => []
  | fuel + 1, '$' :: '\x7b' :: t =>
    match reference? t with
    | some (name, default, rest) => (known name).getD default ++ substitute known fuel rest
    | none => '$' :: substitute known fuel ('\x7b' :: t)
  | fuel + 1, c :: t => c :: substitute known fuel t

/-- The value that a name has on the lines read so far, or else outside. A name without a value
hides the one outside and counts as empty. -/
def known (outside : List (Text × Text)) (inside : List (Text × Option Text)) (name : Text) :
    Option Text :=
  match getMember? name inside with
  | some value => some (value.getD [])
  | none => outside.lookup name

/-- The values that assignments give to names, with references replaced. The last assignment to a
name counts, in the place of the first. -/
def resolve (outside : List (Text × Text)) (assignments : List Assignment) :
    List (Text × Option Text) :=
  assignments.foldl (fun inside a =>
    setMember a.name (a.value.map fun v =>
      substitute (known outside inside) (v.length + 1) v) inside) []

end NoteQuery.EnvFile

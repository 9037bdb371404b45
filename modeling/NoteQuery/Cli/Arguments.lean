import NoteQuery.Intake.Scalar
import NoteQuery.Text.Digit
import NoteQuery.Text.Quoted

/-!
# Reading command lines

A `Grammar` lists the options and operands of a command. Reading goes in two steps. First each
argument is sorted: `--` ends the options, an argument that begins with a dash is an option, and
every other one an operand; negative numbers, a dash alone and anything with a space are operands
too. A long option may be abbreviated as long as one option alone fits. Then the arguments are
used from left to right. What neither an option nor an operand takes is left over.
-/

set_option autoImplicit false

namespace NoteQuery

namespace Arguments

/-! ## Grammars -/

/-- What an option wants. -/
inductive OptionKind where
  | help
  | flag
  | text
  | integer
  deriving DecidableEq, Repr

structure OptionSpec where
  names : List Text
  kind : OptionKind
  deriving DecidableEq, Repr

def OptionSpec.label (o : OptionSpec) : Text :=
  Text.join ['/'] o.names

/-- The options and operands of a command. -/
structure Grammar where
  program : Text
  options : List OptionSpec
  /-- The names of the operands, each of which has to be given. -/
  operands : List Text
  /-- Whether the last operand takes all that follows it. -/
  lastTakesRest : Bool
  deriving DecidableEq, Repr

def Grammar.optionNames (g : Grammar) : List (Text × OptionSpec) :=
  g.options.flatMap fun o => o.names.map (·, o)

/-! ## Errors -/

/-- What can be wrong with arguments. -/
inductive Misuse where
  | ambiguous (argument : Text) (matching : List Text)
  | missingValue (option : Text)
  | unwantedValue (option value : Text)
  | notInteger (option value : Text)
  | unknownChoice (operand value : Text) (choices : List Text)
  | missing (operands : List Text)
  | leftOver (arguments : List Text)
  deriving DecidableEq, Repr

/-- The wording of what is wrong. -/
def Misuse.message : Misuse → Text
  | .ambiguous argument matching => "ambiguous option: ".toList ++ argument ++
      " could match ".toList ++ Text.join ", ".toList matching
  | .missingValue option => "argument ".toList ++ option ++ ": expected one argument".toList
  | .unwantedValue option value => "argument ".toList ++ option ++
      ": ignored explicit argument ".toList ++ Text.shown value
  | .notInteger option value => "argument ".toList ++ option ++ ": invalid int value: ".toList ++
      Text.shown value
  | .unknownChoice operand value choices => "argument ".toList ++ operand ++
      ": invalid choice: ".toList ++ Text.shown value ++ " (choose from ".toList ++
      Text.join ", ".toList (choices.map Text.shown) ++ ")".toList
  | .missing operands => "the following arguments are required: ".toList ++
      Text.join ", ".toList operands
  | .leftOver arguments => "unrecognized arguments: ".toList ++ Text.join [' '] arguments

/-- Why a command is not carried out. -/
inductive Stop where
  | help (program : Text)
  | misuse (program : Text) (misuse : Misuse)
  deriving DecidableEq, Repr

/-! ## Sorting arguments -/

/-- What an argument that begins with a dash stands for. -/
structure OptionUse where
  spec : OptionSpec
  hasSign : Bool
  value : Option Text
  deriving DecidableEq, Repr

/-- The role of an argument. -/
inductive Role where
  | dashes
  | operand
  | option (use : OptionUse)
  /-- It looks like an option, and the grammar has none that fits. -/
  | unknownOption
  deriving DecidableEq, Repr

def isDigit (c : Char) : Bool :=
  (Text.digitValue? c).isSome

/-- Whether a text is a negative number: a dash, digits, and perhaps a point in front of the last
digits. A line feed may end it. -/
def isNegativeNumber (t : Text) : Bool :=
  match t with
  | '-' :: t =>
    let t := if t.getLast? = some '\n' then t.dropLast else t
    match t.dropWhile isDigit with
    | [] => !t.isEmpty
    | '.' :: places => !places.isEmpty && places.all isDigit
    | _ => false
  | _ => false

/-- An argument up to its first equals sign, and the value behind that. -/
def splitValue (t : Text) : Text × Option Text :=
  match t.dropWhile (· != '=') with
  | _ :: value => (t.takeWhile (· != '='), some value)
  | [] => (t, none)

/-- What an argument with a dash could stand for: the options that a long name abbreviates, or the
short option that it begins with. -/
def candidates (g : Grammar) (t : Text) : List (Text × OptionUse) :=
  if ['-', '-'].isPrefixOf t then
    let (name, value) := splitValue t
    (g.optionNames.filter fun o => name.isPrefixOf o.1).map fun o =>
      (o.1, ⟨o.2, value.isSome, value⟩)
  else
    g.optionNames.filterMap fun o =>
      if o.1 = t.take 2 then some (o.1, ⟨o.2, false, some (t.drop 2)⟩)
      else if t.isPrefixOf o.1 then some (o.1, ⟨o.2, false, none⟩)
      else none

/-- The role of one argument in front of which no `--` stands. -/
def role (g : Grammar) (t : Text) : Except Misuse Role :=
  if t.head? ≠ some '-' then .ok .operand
  else
    match g.optionNames.lookup t with
    | some o => .ok (.option ⟨o, false, none⟩)
    | none =>
      if t.length = 1 then .ok .operand
      else
        let (name, value) := splitValue t
        match value.bind fun v => (g.optionNames.lookup name).map (·, v) with
        | some (o, v) => .ok (.option ⟨o, true, some v⟩)
        | none =>
          match candidates g t with
          | [(_, use)] => .ok (.option use)
          | [] =>
            if isNegativeNumber t || t.elem ' ' then .ok .operand else .ok .unknownOption
          | several => .error (.ambiguous t (several.map (·.1)))

def roles (g : Grammar) : List Text → Except Misuse (List (Text × Role))
  | [] => .ok []
  | t :: ts =>
    if t = ['-', '-'] then .ok ((t, .dashes) :: ts.map (·, .operand))
    else do
      let r ← role g t
      return (t, r) :: (← roles g ts)

/-! ## Using arguments -/

/-- The whole number that a text spells: digits of any script, which underscores may divide, after
a sign, with white space around them. -/
def wholeNumber? (t : Text) : Option Int := do
  let (negative, t) :=
    match Intake.unpad t with
    | '-' :: r => (true, r)
    | '+' :: r => (false, r)
    | r => (false, r)
  let digits ← Intake.dropUnderscores? t
  if digits.isEmpty || Intake.maxNumeralLength < digits.length then none
  let values ← digits.mapM Text.digitValue?
  let n : Nat := values.foldl (fun n d => 10 * n + d) 0
  return if negative then -(n : Int) else n

/-- What arguments come to. -/
structure Usage where
  /-- The options given, each with its value, last first. -/
  options : List (OptionSpec × Text)
  operands : List Text
  leftOver : List Text
  deriving DecidableEq, Repr

namespace Usage

/-- Nothing was given. -/
def empty : Usage := ⟨[], [], []⟩

def value? (u : Usage) (name : String) : Option Text :=
  (u.options.find? fun o => o.1.names.contains name.toList).map (·.2)

def operand (u : Usage) (index : Nat) : Text :=
  (u.operands[index]?).getD []

end Usage

/-- The value that is wrong in the argument of an option that asks for help. Behind an equals sign
every value is; letters right behind a short option are further short options, unless a dash is
the first of them. -/
def unwanted? (hasSign : Bool) : Text → Option Text
  | [] => some []
  | c :: rest =>
    if hasSign || c = '-' then some (c :: rest)
    else if c = 'h' then
      match rest with
      | [] => none
      | '=' :: value => some value
      | d :: rest => unwanted? false (d :: rest)
    else none

/-- Arguments used from left to right. `lastWasOperand` says that the argument before was taken as
an operand: then a `--` belongs to it. A `--` in front of an operand belongs to that operand. -/
def useFrom (g : Grammar) (lastWasOperand : Bool) (u : Usage) :
    List (Text × Role) → Except Stop Usage
  | [] => .ok u
  | (t, .unknownOption) :: rest =>
    useFrom g false { u with leftOver := u.leftOver ++ [t] } rest
  | (t, .dashes) :: rest =>
    if u.operands.length < g.operands.length || lastWasOperand then
      match lastWasOperand, rest with
      | false, [] => .ok { u with leftOver := u.leftOver ++ [t] }
      | false, (next, _) :: others =>
        if g.lastTakesRest && u.operands.length + 1 = g.operands.length then
          .ok { u with operands := u.operands ++ t :: next :: others.map (·.1) }
        else useFrom g true { u with operands := u.operands ++ [next] } others
      | true, rest => useFrom g true u rest
    else useFrom g false { u with leftOver := u.leftOver ++ [t] } rest
  | (t, .operand) :: rest =>
    if u.operands.length < g.operands.length then
      if g.lastTakesRest && u.operands.length + 1 = g.operands.length then
        .ok { u with operands := u.operands ++ t :: rest.map (·.1) }
      else
        let value := if t = ['-', '-'] then [] else t
        useFrom g true { u with operands := u.operands ++ [value] } rest
    else useFrom g false { u with leftOver := u.leftOver ++ [t] } rest
  | (_, .option use) :: rest =>
    let misuse (m : Misuse) : Except Stop Usage := .error (.misuse g.program m)
    match use.spec.kind with
    | .help =>
      match use.value.bind (unwanted? use.hasSign) with
      | some v => misuse (.unwantedValue use.spec.label v)
      | none => .error (.help g.program)
    | .flag =>
      match use.value with
      | some v => misuse (.unwantedValue use.spec.label v)
      | none => useFrom g false { u with options := (use.spec, []) :: u.options } rest
    | .text | .integer =>
      let take (value : Text) (next : Unit → Except Stop Usage) : Except Stop Usage :=
        if use.spec.kind = .integer && (wholeNumber? value).isNone then
          misuse (.notInteger use.spec.label value)
        else next ()
      match use.value, rest with
      | some v, rest =>
        take v fun _ => useFrom g false { u with options := (use.spec, v) :: u.options } rest
      | none, (v, .operand) :: rest =>
        take v fun _ => useFrom g false { u with options := (use.spec, v) :: u.options } rest
      | none, _ => misuse (.missingValue use.spec.label)

/-- What arguments come to by a grammar, if none is wrong and no operand is missing. -/
def read (g : Grammar) (arguments : List Text) : Except Stop Usage := do
  let sorted ← (roles g arguments).mapError (.misuse g.program)
  let u ← useFrom g false .empty sorted
  if u.operands.length < g.operands.length then
    throw (.misuse g.program (.missing (g.operands.drop u.operands.length)))
  return u

end Arguments

end NoteQuery

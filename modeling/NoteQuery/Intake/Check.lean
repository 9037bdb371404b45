import NoteQuery.Datum.Shown

/-!
# Checking loosely typed values

Reading a value either accepts it, or lists every problem found with the places where they are, or
breaks off because the value could not be looked into at all. Checks of several parts are combined
so that the problems of all parts are told, in the order of the parts.
-/

set_option autoImplicit false

namespace NoteQuery.Intake

/-- A step on the way to a part of a value. -/
inductive Place where
  | member (name : Text)
  | entry (index : Nat)
  deriving DecidableEq, Repr

/-- What can be wrong with a part of a value. -/
inductive Flaw where
  | missing
  | notText
  | notUnicode
  | textTooShort
  | tooSmall
  | notInteger
  | unreadableInteger
  | fractionalInteger
  /-- The whole number is too large. -/
  | integerSize
  | notFinite
  | notTruth
  | unreadableTruth
  | notNumber
  | unreadableNumber
  | notList
  | notTuple
  | tooLong
  | notRecord
  | unknownChoice
  | notMoment
  | unreadableMoment
  | unreadableDay
  | rejected (reason : Text)
  deriving DecidableEq, Repr

def Flaw.code : Flaw → String
  | .missing => "missing"
  | .notText => "string_type"
  | .notUnicode => "string_unicode"
  | .textTooShort => "string_too_short"
  | .tooSmall => "greater_than_equal"
  | .notInteger => "int_type"
  | .unreadableInteger => "int_parsing"
  | .fractionalInteger => "int_from_float"
  | .integerSize => "int_parsing_size"
  | .notFinite => "finite_number"
  | .notTruth => "bool_type"
  | .unreadableTruth => "bool_parsing"
  | .notNumber => "float_type"
  | .unreadableNumber => "float_parsing"
  | .notList => "list_type"
  | .notTuple => "tuple_type"
  | .tooLong => "too_long"
  | .notRecord => "model_type"
  | .unknownChoice => "literal_error"
  | .notMoment => "datetime_type"
  | .unreadableMoment => "datetime_parsing"
  | .unreadableDay => "datetime_from_date_parsing"
  | .rejected _ => "value_error"

/-- The reason that goes with a flaw, where it has one. -/
def Flaw.reason? : Flaw → Option Text
  | .rejected reason => some ("Value error, ".toList ++ reason)
  | _ => none

/-- A flaw with its place. -/
structure Problem where
  /-- The way from the whole value to the part. -/
  place : List Place
  flaw : Flaw
  deriving DecidableEq, Repr

/-- Why a value could not be looked into. -/
inductive Breakage where
  | notIterable (value : Datum)
  | unhashable (value : Datum)
  /-- Two values have no order. -/
  | unordered (pair : Datum.Unordered)

def Breakage.message : Breakage → Text
  | .notIterable d => "'".toList ++ d.kindName ++ "' object is not iterable".toList
  | .unhashable d => "unhashable type: '".toList ++ d.kindName ++ "'".toList
  | .unordered p => "'<' not supported between instances of '".toList ++ p.left.kindName ++
      "' and '".toList ++ p.right.kindName ++ "'".toList

/-- The outcome of a check. -/
inductive Check (α : Type) where
  | accepted (a : α)
  | refused (problems : List Problem)
  /-- The value could not be looked into. -/
  | broken (breakage : Breakage)

namespace Check

def flaw {α : Type} (f : Flaw) : Check α :=
  .refused [⟨[], f⟩]

def map {α β : Type} (f : α → β) : Check α → Check β
  | .accepted a => .accepted (f a)
  | .refused ps => .refused ps
  | .broken b => .broken b

def andThen {α β : Type} (c : Check α) (f : α → Check β) : Check β :=
  match c with
  | .accepted a => f a
  | .refused ps => .refused ps
  | .broken b => .broken b

/-- The outcome of two checks: all problems of both. -/
def both {α β : Type} : Check α → Check β → Check (α × β)
  | .broken b, _ => .broken b
  | _, .broken b => .broken b
  | .refused ps, .refused qs => .refused (ps ++ qs)
  | .refused ps, .accepted _ => .refused ps
  | .accepted _, .refused qs => .refused qs
  | .accepted a, .accepted b => .accepted (a, b)

instance : Functor Check where
  map := map

instance : Applicative Check where
  pure := .accepted
  seq f c := (both f (c ())).map fun p => p.1 p.2

def under {α : Type} (place : Place) : Check α → Check α
  | .refused ps => .refused (ps.map fun p => { p with place := place :: p.place })
  | c => c

def entries {α : Type} (check : Datum → Check α) (index : Nat) : List Datum → Check (List α)
  | [] => .accepted []
  | d :: ds =>
    (both ((check d).under (.entry index)) (entries check (index + 1) ds)).map fun p => p.1 :: p.2

end Check

/-- Why a value was not taken in. -/
inductive Refusal where
  /-- It has problems; `title` names what it should have been. -/
  | invalid (title : Text) (problems : List Problem)
  | broken (breakage : Breakage)
  /-- What was to give it failed, with an error of some kind. -/
  | failed (kind message : Text)

/-- A step on the way to a part, as messages give it. -/
def Place.shown : Place → Text
  | .member name => name
  | .entry index => Text.ofNat index

/-- The wording of a refusal: the count of the problems, then each with its place. -/
def Refusal.message : Refusal → Text
  | .broken b => b.message
  | .failed _ message => message
  | .invalid title problems =>
    let count := problems.length
    let heading := Text.ofNat count ++ " validation error".toList ++
      (if count = 1 then [] else ['s']) ++ " for ".toList ++ title
    let lines := problems.map fun p =>
      Text.join ['.'] (p.place.map Place.shown) ++ ": ".toList ++
        (p.flaw.reason?.getD p.flaw.code.toList)
    Text.join ['\n'] (heading :: lines)

/-- A check as a result, with the name of what the value should have been. -/
def Check.result {α : Type} (title : String) : Check α → Except Refusal α
  | .accepted a => .ok a
  | .refused ps => .error (.invalid title.toList ps)
  | .broken b => .error (.broken b)

end NoteQuery.Intake

import NoteQuery.Query.Token

/-!
# Query trees

A query is a tree: leaves look for a text in the fields of a note, and inner nodes combine what
their children find. Trees may also come from callers, so a child can be absent or of a kind that
nobody knows, and a conjunction can have fewer than two children; `Tree.Proper` describes the
trees that are free of all that.
-/

set_option autoImplicit false

namespace NoteQuery

/-- Where a leaf looks for its text. -/
inductive Field where
  | tag
  | title
  | body
  /-- In title, body and tags. -/
  | anywhere
  deriving DecidableEq, Repr

namespace Field

def name : Field → Text
  | .tag => "tag".toList
  | .title => "title".toList
  | .body => "body".toList
  | .anywhere => "text".toList

def named : List Field := [.tag, .title, .body]

/-- The field with a given name, among those that a query can name. -/
def ofName? (name : Text) : Option Field :=
  named.find? (·.name == name)

/-- What stands before the value of a leaf. -/
def marker : Field → Text
  | .anywhere => []
  | f => f.name ++ [':']

end Field

/-- A query tree. -/
inductive Tree where
  | leaf (field : Field) (value : Text)
  | all (children : List Tree)
  | any (children : List Tree)
  /-- The child must not hold. -/
  | negation (child : Tree)
  | group (child : Tree)
  | absent
  | unknown (kind : Text)
  deriving Inhabited

namespace Tree

/-! ## Equality -/

mutual

/-- Whether two trees are equal. -/
def same : Tree → Tree → Bool
  | .leaf f v, .leaf g w => f == g && v == w
  | .all cs, .all ds => sameList cs ds
  | .any cs, .any ds => sameList cs ds
  | .negation c, .negation d => same c d
  | .group c, .group d => same c d
  | .absent, .absent => true
  | .unknown k, .unknown l => k == l
  | _, _ => false

def sameList : List Tree → List Tree → Bool
  | [], [] => true
  | c :: cs, d :: ds => same c d && sameList cs ds
  | _, _ => false

end

mutual

theorem same_self : ∀ t : Tree, same t t = true
  | .leaf _ _ => by simp [same]
  | .all cs => by simp [same, sameList_self cs]
  | .any cs => by simp [same, sameList_self cs]
  | .negation c => by simp [same, same_self c]
  | .group c => by simp [same, same_self c]
  | .absent => by simp [same]
  | .unknown _ => by simp [same]

theorem sameList_self : ∀ cs : List Tree, sameList cs cs = true
  | [] => by simp [sameList]
  | c :: cs => by simp [sameList, same_self c, sameList_self cs]

end

mutual

theorem eq_of_same : ∀ {s t : Tree}, same s t = true → s = t
  | .leaf _ _, t, h => by cases t <;> simp_all [same]
  | .all cs, t, h => by
    cases t with
    | all ds => simp only [same] at h; rw [eq_of_sameList h]
    | _ => simp [same] at h
  | .any cs, t, h => by
    cases t with
    | any ds => simp only [same] at h; rw [eq_of_sameList h]
    | _ => simp [same] at h
  | .negation c, t, h => by
    cases t with
    | negation d => simp only [same] at h; rw [eq_of_same h]
    | _ => simp [same] at h
  | .group c, t, h => by
    cases t with
    | group d => simp only [same] at h; rw [eq_of_same h]
    | _ => simp [same] at h
  | .absent, t, h => by cases t <;> simp_all [same]
  | .unknown _, t, h => by cases t <;> simp_all [same]

theorem eq_of_sameList : ∀ {cs ds : List Tree}, sameList cs ds = true → cs = ds
  | [], ds, h => by cases ds <;> simp_all [sameList]
  | c :: cs, ds, h => by
    cases ds with
    | nil => simp [sameList] at h
    | cons d ds =>
      simp only [sameList, Bool.and_eq_true] at h
      rw [eq_of_same h.1, eq_of_sameList h.2]

end

instance : DecidableEq Tree := fun s t =>
  if h : same s t = true then .isTrue (eq_of_same h)
  else .isFalse fun e => h (e ▸ same_self s)

/-! ## Building -/

/-- The conjunction of operands; one alone stands for itself. -/
def allOf : List Tree → Tree
  | [t] => t
  | ts => .all ts

/-- The disjunction of operands; one alone stands for itself. -/
def anyOf : List Tree → Tree
  | [t] => t
  | ts => .any ts

/-- A tree under `n` negations. -/
def negations : Nat → Tree → Tree
  | 0, t => t
  | n + 1, t => .negation (negations n t)

def kindName : Tree → Text
  | .leaf .tag _ => "TagTerm".toList
  | .leaf .title _ => "TitleTerm".toList
  | .leaf .body _ => "BodyTerm".toList
  | .leaf .anywhere _ => "TextTerm".toList
  | .all _ => "AndOp".toList
  | .any _ => "OrOp".toList
  | .negation _ => "NotOp".toList
  | .group _ => "GroupOp".toList
  | .absent => "NoneType".toList
  | .unknown kind => kind

/-! ## Measures -/

mutual

def size : Tree → Nat
  | .leaf _ _ => 1
  | .all cs => 1 + sizeList cs
  | .any cs => 1 + sizeList cs
  | .negation c => 1 + size c
  | .group c => 1 + size c
  | .absent => 0
  | .unknown _ => 1

/-- The number of nodes of several trees. -/
def sizeList : List Tree → Nat
  | [] => 0
  | c :: cs => size c + sizeList cs

end

mutual

/-- The greatest number of negations and groups around a node. -/
def nesting : Tree → Nat
  | .leaf _ _ => 0
  | .all cs => nestingList cs
  | .any cs => nestingList cs
  | .negation c => 1 + nesting c
  | .group c => 1 + nesting c
  | .absent => 0
  | .unknown _ => 0

def nestingList : List Tree → Nat
  | [] => 0
  | c :: cs => max (nesting c) (nestingList cs)

end

mutual

/-- The number of nodes on the longest way from the root to a leaf. -/
def height : Tree → Nat
  | .leaf _ _ => 1
  | .all cs => 1 + heightList cs
  | .any cs => 1 + heightList cs
  | .negation c => 1 + height c
  | .group c => 1 + height c
  | .absent => 1
  | .unknown _ => 1

def heightList : List Tree → Nat
  | [] => 0
  | c :: cs => max (height c) (heightList cs)

end

/-! ## Well-formed trees -/

mutual

def Known : Tree → Prop
  | .leaf _ _ => True
  | .all cs => KnownList cs
  | .any cs => KnownList cs
  | .negation c => Known c
  | .group c => Known c
  | .absent => False
  | .unknown _ => False

def KnownList : List Tree → Prop
  | [] => True
  | c :: cs => Known c ∧ KnownList cs

end

mutual

/-- Whether every node is of a known kind and every connective joins two children or more. -/
def Proper : Tree → Prop
  | .leaf _ _ => True
  | .all cs => 2 ≤ cs.length ∧ ProperList cs
  | .any cs => 2 ≤ cs.length ∧ ProperList cs
  | .negation c => Proper c
  | .group c => Proper c
  | .absent => False
  | .unknown _ => False

def ProperList : List Tree → Prop
  | [] => True
  | c :: cs => Proper c ∧ ProperList cs

end

mutual

/-- Whether every conjunction has a child. -/
def Filled : Tree → Prop
  | .leaf _ _ => True
  | .all cs => cs ≠ [] ∧ FilledList cs
  | .any cs => FilledList cs
  | .negation c => Filled c
  | .group c => Filled c
  | .absent => True
  | .unknown _ => True

def FilledList : List Tree → Prop
  | [] => True
  | c :: cs => Filled c ∧ FilledList cs

end

/-! ## Leaves -/

mutual

/-- The leaves that speak for a hit, from left to right: what stands under a negation does not. -/
def leaves : Tree → List (Field × Text)
  | .leaf f v => [(f, v)]
  | .all cs => leavesList cs
  | .any cs => leavesList cs
  | .negation _ => []
  | .group c => leaves c
  | .absent => []
  | .unknown _ => []

def leavesList : List Tree → List (Field × Text)
  | [] => []
  | c :: cs => leaves c ++ leavesList cs

end

end Tree

end NoteQuery

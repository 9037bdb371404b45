import NoteQuery.Query.Checked
import NoteQuery.Query.Shape

/-!
# Trees and their children

A tree keeps its children in lists, so what is defined on trees is defined on lists of trees beside
it. `Tree.induction` is the one induction that everything else uses: what holds of a node follows
from the same for each of its children. The other lemmas say what the functions on lists mean for
the single child, and `Tree.Layered.height_le` that a layered tree is not much taller than its
groups and negations are nested.

`Tree.Shaped` gathers what the trees of the grammar have in common, with a condition on the values:
what the grammar derives is shaped, what was read from a text is shaped, and what can be written is.
-/

set_option autoImplicit false

namespace NoteQuery.Tree

/-! ## Induction -/

/-- Induction over a tree: a property of all children is a property of the node. -/
@[elab_as_elim, induction_eliminator]
theorem induction {P : Tree → Prop} (leaf : ∀ f v, P (.leaf f v))
    (all : ∀ cs, (∀ c ∈ cs, P c) → P (.all cs)) (any : ∀ cs, (∀ c ∈ cs, P c) → P (.any cs))
    (negation : ∀ c, P c → P (.negation c)) (group : ∀ c, P c → P (.group c))
    (absent : P .absent) (unknown : ∀ kind, P (.unknown kind)) (t : Tree) : P t :=
  @Tree.rec P (fun cs => ∀ c ∈ cs, P c) leaf all any negation group absent unknown
    (fun _ hc => absurd hc (List.not_mem_nil))
    (fun _ _ hc hcs => List.forall_mem_cons.2 ⟨hc, hcs⟩) t

/-! ## Children one by one -/

theorem properList_iff {cs : List Tree} : ProperList cs ↔ ∀ c ∈ cs, c.Proper := by
  induction cs with
  | nil => simp [ProperList]
  | cons c cs ih => simp [ProperList, ih]

theorem knownList_iff {cs : List Tree} : KnownList cs ↔ ∀ c ∈ cs, c.Known := by
  induction cs with
  | nil => simp [KnownList]
  | cons c cs ih => simp [KnownList, ih]

theorem filledList_iff {cs : List Tree} : FilledList cs ↔ ∀ c ∈ cs, c.Filled := by
  induction cs with
  | nil => simp [FilledList]
  | cons c cs ih => simp [FilledList, ih]

theorem layeredList_iff {cs : List Tree} : LayeredList cs ↔ ∀ c ∈ cs, c.Layered := by
  induction cs with
  | nil => simp [LayeredList]
  | cons c cs ih => simp [LayeredList, ih]

theorem nestingList_le_iff {cs : List Tree} {n : Nat} :
    nestingList cs ≤ n ↔ ∀ c ∈ cs, c.nesting ≤ n := by
  induction cs with
  | nil => simp [nestingList]
  | cons c cs ih => rw [nestingList, Nat.max_le, List.forall_mem_cons, ih]

theorem heightList_le_iff {cs : List Tree} {n : Nat} :
    heightList cs ≤ n ↔ ∀ c ∈ cs, c.height ≤ n := by
  induction cs with
  | nil => simp [heightList]
  | cons c cs ih => rw [heightList, Nat.max_le, List.forall_mem_cons, ih]

theorem nesting_le_nestingList {cs : List Tree} {c : Tree} (h : c ∈ cs) :
    c.nesting ≤ nestingList cs :=
  nestingList_le_iff.1 (Nat.le_refl _) c h

theorem height_le_heightList {cs : List Tree} {c : Tree} (h : c ∈ cs) :
    c.height ≤ heightList cs :=
  heightList_le_iff.1 (Nat.le_refl _) c h

theorem mem_valuesList {cs : List Tree} {v : Text} :
    v ∈ valuesList cs ↔ ∃ c ∈ cs, v ∈ c.values := by
  induction cs with
  | nil => simp [valuesList]
  | cons c cs ih => simp [valuesList, ih]

theorem renderList_eq_map (cs : List Tree) : renderList cs = cs.map render := by
  induction cs with
  | nil => rfl
  | cons c cs ih => rw [renderList, ih, List.map_cons]

theorem obstacleIn?_eq_none_iff {deep : Bool} {room : Nat} {cs : List Tree} :
    obstacleIn? deep room cs = none ↔ ∀ c ∈ cs, c.obstacle? deep room = none := by
  induction cs with
  | nil => simp [obstacleIn?]
  | cons c cs ih => simp [obstacleIn?, ih]

/-! ## Nesting -/

theorem nesting_allOf (ts : List Tree) : (allOf ts).nesting = nestingList ts := by
  match ts with
  | [] => rfl
  | [t] => exact (Nat.max_zero t.nesting).symm
  | t :: u :: us => rfl

theorem nesting_anyOf (ts : List Tree) : (anyOf ts).nesting = nestingList ts := by
  match ts with
  | [] => rfl
  | [t] => exact (Nat.max_zero t.nesting).symm
  | t :: u :: us => rfl

/-! ## Proper trees -/

theorem Proper.known {t : Tree} (h : t.Proper) : t.Known := by
  induction t with
  | leaf f v => trivial
  | all cs ih | any cs ih =>
    have hcs := properList_iff.1 h.2
    exact knownList_iff.2 fun c hc => ih c hc (hcs c hc)
  | negation c ih | group c ih => exact ih h
  | absent | unknown kind => exact h

/-- A connective that joins two children has one. -/
theorem Proper.filled {t : Tree} (h : t.Proper) : t.Filled := by
  induction t with
  | leaf f v => trivial
  | all cs ih =>
    have hcs := properList_iff.1 h.2
    have hne : cs ≠ [] := List.length_pos_iff.1 (Nat.lt_of_lt_of_le Nat.two_pos h.1)
    exact ⟨hne, filledList_iff.2 fun c hc => ih c hc (hcs c hc)⟩
  | any cs ih =>
    have hcs := properList_iff.1 h.2
    exact filledList_iff.2 fun c hc => ih c hc (hcs c hc)
  | negation c ih | group c ih => exact ih h
  | absent | unknown kind => trivial

/-! ## Height -/

theorem exists_room_of_height_le {t : Tree} {room : Nat} (h : t.height ≤ room) :
    ∃ r, room = r + 1 := by
  have hpos : 1 ≤ t.height := by
    cases t <;> simp only [height] <;> omega
  exact ⟨room - 1, by omega⟩

theorem height_all_le {cs : List Tree} {room : Nat} :
    (all cs).height ≤ room + 1 ↔ ∀ c ∈ cs, c.height ≤ room := by
  rw [height, ← heightList_le_iff]
  omega

theorem height_any_le {cs : List Tree} {room : Nat} :
    (any cs).height ≤ room + 1 ↔ ∀ c ∈ cs, c.height ≤ room := by
  rw [height, ← heightList_le_iff]
  omega

theorem height_negation_le {c : Tree} {room : Nat} :
    (negation c).height ≤ room + 1 ↔ c.height ≤ room := by
  rw [height]
  omega

theorem height_group_le {c : Tree} {room : Nat} :
    (group c).height ≤ room + 1 ↔ c.height ≤ room := by
  rw [height]
  omega

/-- A tree of known kinds that is not too tall can be walked through. -/
theorem obstacle?_eq_none {t : Tree} {deep : Bool} {room : Nat} (hk : t.Known)
    (hh : t.height ≤ room) : t.obstacle? deep room = none := by
  induction t generalizing room with
  | leaf f v =>
    obtain ⟨room, rfl⟩ := exists_room_of_height_le hh
    simp only [obstacle?]
  | all cs ih =>
    obtain ⟨room, rfl⟩ := exists_room_of_height_le hh
    have hcs := knownList_iff.1 hk
    have hheight := height_all_le.1 hh
    simp only [obstacle?]
    exact obstacleIn?_eq_none_iff.2 fun c hc => ih c hc (hcs c hc) (hheight c hc)
  | any cs ih =>
    obtain ⟨room, rfl⟩ := exists_room_of_height_le hh
    have hcs := knownList_iff.1 hk
    have hheight := height_any_le.1 hh
    simp only [obstacle?]
    exact obstacleIn?_eq_none_iff.2 fun c hc => ih c hc (hcs c hc) (hheight c hc)
  | negation c ih =>
    obtain ⟨room, rfl⟩ := exists_room_of_height_le hh
    have hc := ih hk (height_negation_le.1 hh)
    simp only [obstacle?, hc, ite_self]
  | group c ih =>
    obtain ⟨room, rfl⟩ := exists_room_of_height_le hh
    simp only [obstacle?]
    exact ih hk (height_group_le.1 hh)
  | absent => exact absurd hk id
  | unknown kind => exact absurd hk id

/-- Between two groups or negations, a layered tree has at most a disjunction and a conjunction. -/
theorem Layered.height_le {t : Tree} (h : t.Layered) :
    t.height ≤ 3 * t.nesting + 3 ∧ (t.isDisjunction = false → t.height ≤ 3 * t.nesting + 2) ∧
      (t.isDisjunction = false → t.isConjunction = false → t.height ≤ 3 * t.nesting + 1) := by
  induction t with
  | leaf f v => simp [height]
  | all cs ih =>
    have hcs := layeredList_iff.1 h.2
    have hle : heightList cs ≤ 3 * nestingList cs + 1 := by
      refine heightList_le_iff.2 fun c hc => ?_
      have hc' := h.1 c hc
      have hheight := (ih c hc (hcs c hc)).2.2 hc'.2 hc'.1
      have hnest := nesting_le_nestingList hc
      omega
    simp only [height, nesting, isConjunction, isDisjunction]
    exact ⟨by omega, fun _ => by omega, fun _ h => absurd h (by simp)⟩
  | any cs ih =>
    have hcs := layeredList_iff.1 h.2
    have hle : heightList cs ≤ 3 * nestingList cs + 2 := by
      refine heightList_le_iff.2 fun c hc => ?_
      have hheight := (ih c hc (hcs c hc)).2.1 (h.1 c hc)
      have hnest := nesting_le_nestingList hc
      omega
    simp only [height, nesting, isDisjunction]
    exact ⟨by omega, fun h => absurd h (by simp), fun h => absurd h (by simp)⟩
  | negation c ih =>
    have hheight := (ih h.2.2).1
    simp only [height, nesting]
    exact ⟨by omega, fun _ => by omega, fun _ _ => by omega⟩
  | group c ih =>
    have hheight := (ih h).1
    simp only [height, nesting]
    exact ⟨by omega, fun _ => by omega, fun _ _ => by omega⟩
  | absent => simp [height]
  | unknown kind => simp [height]

/-! ## Shape -/

/-- Whether a tree is no connective. -/
def IsOperand (t : Tree) : Prop :=
  t.isConjunction = false ∧ t.isDisjunction = false

/-- The shape of the trees of the grammar, with a condition on the values. -/
structure Shaped (room : Nat) (P : Text → Prop) (t : Tree) : Prop where
  /-- Connectives join at least two children, and every node is of a known kind. -/
  proper : t.Proper
  /-- What binds too loosely stands in a group. -/
  layered : t.Layered
  /-- Groups and negations fit into the room. -/
  nesting_le : t.nesting ≤ room
  values : ∀ v ∈ t.values, P v

variable {room : Nat} {P Q : Text → Prop}

theorem Shaped.imp {t : Tree} (h : t.Shaped room P) (hPQ : ∀ v, P v → Q v) : t.Shaped room Q :=
  { h with values := fun v hv => hPQ v (h.values v hv) }

/-- The room for groups and negations bounds the height. -/
theorem Shaped.height_le {t : Tree} (h : t.Shaped room P) : t.height ≤ 3 * room + 3 := by
  have hheight := h.layered.height_le.1
  have hnesting := h.nesting_le
  omega

theorem shaped_leaf_iff {f : Field} {v : Text} : (leaf f v).Shaped room P ↔ P v := by
  constructor
  · intro h
    exact h.values v (List.mem_singleton.2 rfl)
  · intro hv
    refine ⟨trivial, trivial, Nat.zero_le _, fun w hw => ?_⟩
    exact List.mem_singleton.1 hw ▸ hv

theorem shapedList_iff {cs : List Tree} :
    (ProperList cs ∧ LayeredList cs ∧ nestingList cs ≤ room ∧ ∀ v ∈ valuesList cs, P v) ↔
      ∀ c ∈ cs, c.Shaped room P := by
  rw [properList_iff, layeredList_iff, nestingList_le_iff]
  constructor
  · rintro ⟨hproper, hlayered, hnesting, hvalues⟩ c hc
    refine ⟨hproper c hc, hlayered c hc, hnesting c hc, fun v hv => ?_⟩
    exact hvalues v (mem_valuesList.2 ⟨c, hc, hv⟩)
  · intro h
    refine ⟨fun c hc => (h c hc).proper, fun c hc => (h c hc).layered,
      fun c hc => (h c hc).nesting_le, fun v hv => ?_⟩
    obtain ⟨c, hc, hv⟩ := mem_valuesList.1 hv
    exact (h c hc).values v hv

theorem shaped_all_iff {cs : List Tree} :
    (all cs).Shaped room P ↔ 2 ≤ cs.length ∧ ∀ c ∈ cs, c.Shaped room P ∧ c.IsOperand := by
  constructor
  · rintro ⟨⟨hlength, hproper⟩, ⟨hoperands, hlayered⟩, hnesting, hvalues⟩
    have hcs := shapedList_iff.1 ⟨hproper, hlayered, hnesting, hvalues⟩
    exact ⟨hlength, fun c hc => ⟨hcs c hc, hoperands c hc⟩⟩
  · rintro ⟨hlength, hcs⟩
    obtain ⟨hproper, hlayered, hnesting, hvalues⟩ := shapedList_iff.2 fun c hc => (hcs c hc).1
    exact ⟨⟨hlength, hproper⟩, ⟨fun c hc => (hcs c hc).2, hlayered⟩, hnesting, hvalues⟩

theorem shaped_any_iff {cs : List Tree} :
    (any cs).Shaped room P ↔
      2 ≤ cs.length ∧ ∀ c ∈ cs, c.Shaped room P ∧ c.isDisjunction = false := by
  constructor
  · rintro ⟨⟨hlength, hproper⟩, ⟨hterms, hlayered⟩, hnesting, hvalues⟩
    have hcs := shapedList_iff.1 ⟨hproper, hlayered, hnesting, hvalues⟩
    exact ⟨hlength, fun c hc => ⟨hcs c hc, hterms c hc⟩⟩
  · rintro ⟨hlength, hcs⟩
    obtain ⟨hproper, hlayered, hnesting, hvalues⟩ := shapedList_iff.2 fun c hc => (hcs c hc).1
    exact ⟨⟨hlength, hproper⟩, ⟨fun c hc => (hcs c hc).2, hlayered⟩, hnesting, hvalues⟩

theorem shaped_negation_iff {c : Tree} :
    (negation c).Shaped room P ↔ ∃ r, room = r + 1 ∧ c.Shaped r P ∧ c.IsOperand := by
  constructor
  · rintro ⟨hproper, ⟨hconjunction, hdisjunction, hlayered⟩, hnesting, hvalues⟩
    rw [nesting] at hnesting
    exact ⟨room - 1, by omega, ⟨hproper, hlayered, by omega, hvalues⟩, hconjunction, hdisjunction⟩
  · rintro ⟨r, rfl, h, hconjunction, hdisjunction⟩
    have hnesting := h.nesting_le
    refine ⟨h.proper, ⟨hconjunction, hdisjunction, h.layered⟩, ?_, h.values⟩
    rw [nesting]
    omega

theorem shaped_group_iff {c : Tree} :
    (group c).Shaped room P ↔ ∃ r, room = r + 1 ∧ c.Shaped r P := by
  constructor
  · rintro ⟨hproper, hlayered, hnesting, hvalues⟩
    rw [nesting] at hnesting
    exact ⟨room - 1, by omega, hproper, hlayered, by omega, hvalues⟩
  · rintro ⟨r, rfl, h⟩
    have hnesting := h.nesting_le
    refine ⟨h.proper, h.layered, ?_, h.values⟩
    rw [nesting]
    omega

end NoteQuery.Tree

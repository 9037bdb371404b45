/-!
# Ascending lists

A set of values with an order is kept as an ascending list. `insertAscending` puts a value in its
place and leaves a list that already has it as it is, so that building a list value by value gives
the same result in whatever order the values come and however often.
-/

set_option autoImplicit false

namespace NoteQuery

/-- The ascending list with one more value; `before` is the order. -/
def insertAscending {α : Type} [BEq α] (before : α → α → Bool) (x : α) : List α → List α
  | [] => [x]
  | y :: ys =>
    if x == y then y :: ys
    else if before x y then x :: y :: ys
    else y :: insertAscending before x ys

/-- Inserting adds the value and nothing else. -/
theorem mem_insertAscending {α : Type} [BEq α] [LawfulBEq α] {before : α → α → Bool} {x y : α}
    {ys : List α} : y ∈ insertAscending before x ys ↔ y = x ∨ y ∈ ys := by
  induction ys with
  | nil => rw [insertAscending, List.mem_singleton, or_iff_left List.not_mem_nil]
  | cons z zs ih =>
    rw [insertAscending]
    split
    · rename_i h
      obtain rfl : x = z := eq_of_beq h
      rw [List.mem_cons, or_self_left]
    · split
      · rw [List.mem_cons]
      · rw [List.mem_cons, ih, List.mem_cons, or_left_comm]

/-- Inserting keeps a list ascending, where the value has an order with each that is there. -/
theorem pairwise_insertAscending {α : Type} [BEq α] [LawfulBEq α] {before : α → α → Bool}
    (htrans : ∀ x y z, before x y = true → before y z = true → before x z = true) {x : α}
    {ys : List α} (htotal : ∀ y ∈ ys, before x y = true ∨ x = y ∨ before y x = true)
    (h : ys.Pairwise fun y z => before y z = true) :
    (insertAscending before x ys).Pairwise fun y z => before y z = true := by
  induction ys with
  | nil => exact List.pairwise_singleton _ x
  | cons y ys ih =>
    obtain ⟨hfirst, hrest⟩ := List.pairwise_cons.1 h
    obtain ⟨hy, hys⟩ := List.forall_mem_cons.1 htotal
    rw [insertAscending]
    split
    · exact h
    · rename_i hne
      split
      · rename_i hbefore
        refine List.pairwise_cons.2 ⟨List.forall_mem_cons.2 ⟨hbefore, ?_⟩, h⟩
        exact fun z hz => htrans x y z hbefore (hfirst z hz)
      · rename_i hbefore
        refine List.pairwise_cons.2 ⟨fun z hz => ?_, ih hys hrest⟩
        rcases mem_insertAscending.1 hz with rfl | hz
        · have hother : ¬ z = y := fun heq => hne (beq_iff_eq.2 heq)
          exact (hy.resolve_left hbefore).resolve_left hother
        · exact hfirst z hz

def ascending {α : Type} [BEq α] (before : α → α → Bool) (xs : List α) : List α :=
  xs.foldr (insertAscending before) []

/-- The ascending list has the values and nothing else. -/
theorem mem_ascending {α : Type} [BEq α] [LawfulBEq α] {before : α → α → Bool} {x : α}
    {xs : List α} : x ∈ ascending before xs ↔ x ∈ xs := by
  unfold ascending
  induction xs with
  | nil => rw [List.foldr_nil]
  | cons y ys ih => rw [List.foldr_cons, mem_insertAscending, ih, List.mem_cons]

/-- Values that have an order with each other come to stand in it. -/
theorem pairwise_ascending {α : Type} [BEq α] [LawfulBEq α] {before : α → α → Bool}
    (htrans : ∀ x y z, before x y = true → before y z = true → before x z = true) {xs : List α}
    (htotal : ∀ x ∈ xs, ∀ y ∈ xs, before x y = true ∨ x = y ∨ before y x = true) :
    (ascending before xs).Pairwise fun x y => before x y = true := by
  unfold ascending
  induction xs with
  | nil => exact .nil
  | cons x xs ih =>
    refine pairwise_insertAscending htrans (fun y hy => ?_) (ih fun y hy z hz => ?_)
    · exact htotal x List.mem_cons_self y (List.mem_cons_of_mem x (mem_ascending.1 hy))
    · exact htotal y (List.mem_cons_of_mem x hy) z (List.mem_cons_of_mem x hz)

/-- Only one ascending list has given values. -/
theorem eq_of_pairwise_of_mem_iff {α : Type} {before : α → α → Bool}
    (hirrefl : ∀ x, ¬ before x x = true)
    (htrans : ∀ x y z, before x y = true → before y z = true → before x z = true)
    {xs ys : List α} (hxs : xs.Pairwise fun x y => before x y = true)
    (hys : ys.Pairwise fun x y => before x y = true) (h : ∀ x, x ∈ xs ↔ x ∈ ys) : xs = ys := by
  have hne : ∀ {x y}, before x y = true → x ≠ y := by
    rintro x y hbefore rfl
    exact hirrefl x hbefore
  have hperm : xs.Perm ys := (List.perm_ext_iff_of_nodup (hxs.imp hne) (hys.imp hne)).2 h
  refine hperm.eq_of_pairwise (fun x y _ _ hxy hyx => ?_) hxs hys
  exact absurd (htrans x y x hxy hyx) (hirrefl x)

/-- A list without its repetitions; the first of each value stays. -/
def distinct {α : Type} [BEq α] : List α → List α
  | [] => []
  | x :: xs => x :: (distinct xs).filter fun y => !(y == x)

end NoteQuery

/-!
# Values under names

A list of pairs keeps a value under each of some names, in the order in which the names were first
used. `getMember?_setMember` is the law that all uses rest on.
-/

set_option autoImplicit false

namespace NoteQuery

variable {ν α : Type} [DecidableEq ν]

/-- The list with `value` under `name`: a name that is there keeps its place, a new one goes to
the end. -/
def setMember (name : ν) (value : α) : List (ν × α) → List (ν × α)
  | [] => [(name, value)]
  | (n, v) :: rest =>
    if n = name then (n, value) :: rest else (n, v) :: setMember name value rest

/-- The value under `name`. -/
def getMember? (name : ν) : List (ν × α) → Option α
  | [] => none
  | (n, v) :: rest => if n = name then some v else getMember? name rest

theorem getMember?_setMember (name other : ν) (value : α) (members : List (ν × α)) :
    getMember? other (setMember name value members) =
      if name = other then some value else getMember? other members := by
  induction members with
  | nil => rfl
  | cons m rest ih =>
    obtain ⟨n, v⟩ := m
    by_cases hn : n = name
    · subst hn
      by_cases ho : n = other <;> simp [setMember, getMember?, ho]
    · rw [setMember, if_neg hn, getMember?, ih, getMember?]
      by_cases ho : name = other
      · subst ho
        simp [hn]
      · simp [ho]

theorem mem_names_setMember {name other : ν} {value : α} {members : List (ν × α)} :
    other ∈ (setMember name value members).map Prod.fst ↔
      other = name ∨ other ∈ members.map Prod.fst := by
  induction members with
  | nil => simp [setMember]
  | cons m rest ih =>
    obtain ⟨n, v⟩ := m
    by_cases hn : n = name
    · subst hn
      simp [setMember]
    · rw [setMember, if_neg hn, List.map_cons, List.mem_cons, ih, List.map_cons, List.mem_cons,
        or_left_comm]

/-- Names that stand once go on to stand once. -/
theorem nodup_names_setMember {name : ν} {value : α} {members : List (ν × α)}
    (h : (members.map Prod.fst).Nodup) : ((setMember name value members).map Prod.fst).Nodup := by
  induction members with
  | nil => simp [setMember]
  | cons m rest ih =>
    obtain ⟨n, v⟩ := m
    obtain ⟨hfresh, hrest⟩ := List.nodup_cons.1 h
    by_cases hn : n = name
    · rw [setMember, if_pos hn]
      exact h
    · rw [setMember, if_neg hn, List.map_cons, List.nodup_cons, mem_names_setMember, not_or]
      exact ⟨⟨hn, hfresh⟩, ih hrest⟩

/-- Of two lists the first is asked first. -/
theorem getMember?_append (name : ν) (members others : List (ν × α)) :
    getMember? name (members ++ others) =
      (getMember? name members).or (getMember? name others) := by
  induction members with
  | nil => rfl
  | cons m rest ih =>
    obtain ⟨n, v⟩ := m
    by_cases hn : n = name
    · simp [getMember?, hn]
    · simp [getMember?, hn, ih]

/-! ## Setting several names -/

/-- The list with several values under their names, one after another. -/
def setMembers (others members : List (ν × α)) : List (ν × α) :=
  others.foldl (fun ms m => setMember m.1 m.2 ms) members

/-- Of several values under one name the last one stays. -/
theorem getMember?_setMembers (name : ν) (others members : List (ν × α)) :
    getMember? name (setMembers others members) =
      (getMember? name others.reverse).or (getMember? name members) := by
  unfold setMembers
  induction others generalizing members with
  | nil => rfl
  | cons m others ih =>
    obtain ⟨n, v⟩ := m
    rw [List.foldl_cons, ih, List.reverse_cons, getMember?_append, getMember?_setMember]
    cases getMember? name others.reverse with
    | some _ => rfl
    | none =>
      by_cases hn : n = name
      · simp [getMember?, hn]
      · simp [getMember?, hn]

theorem nodup_names_setMembers {others members : List (ν × α)}
    (h : (members.map Prod.fst).Nodup) : ((setMembers others members).map Prod.fst).Nodup := by
  unfold setMembers
  induction others generalizing members with
  | nil => exact h
  | cons m others ih => exact ih (nodup_names_setMember h)

end NoteQuery

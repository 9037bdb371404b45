import NoteQuery.Proofs.Query.Trees

/-!
# What the grammar derives

The trees of the grammar are of one shape: connectives join at least two children and bind as
tightly as their place demands, groups and negations are no deeper than there is room for, and every
value is one of the tokens and not empty. `Grammar.Derives.shaped` says it of every query.
-/

set_option autoImplicit false

namespace NoteQuery

/-- Whether a text is the value of a token, and not empty. -/
def Token.Carried (ts : List Token) (v : Text) : Prop :=
  v ≠ [] ∧ ∃ u ∈ ts, u.kind.isValue = true ∧ u.value = v

namespace Tree

variable {room : Nat} {ts us : List Token}

theorem Shaped.mono {t : Tree} (h : t.Shaped room (Token.Carried ts))
    (hsub : ∀ u ∈ ts, u ∈ us) : t.Shaped room (Token.Carried us) := by
  refine h.imp fun v hv => ?_
  obtain ⟨hne, u, hu, hvalue⟩ := hv
  exact ⟨hne, u, hsub u hu, hvalue⟩

/-- Factors in shape make a conjunction in shape. -/
theorem shaped_allOf {P : Text → Prop} {fs : List Tree} (hne : fs ≠ [])
    (h : ∀ f ∈ fs, f.Shaped room P ∧ f.IsOperand) :
    (allOf fs).Shaped room P ∧ (allOf fs).isDisjunction = false := by
  match fs with
  | [] => exact absurd rfl hne
  | [f] =>
    obtain ⟨hf, hop⟩ := h f (by simp)
    exact ⟨hf, hop.2⟩
  | f :: g :: gs => exact ⟨shaped_all_iff.2 ⟨by simp, h⟩, rfl⟩

theorem shaped_anyOf {P : Text → Prop} {fs : List Tree} (hne : fs ≠ [])
    (h : ∀ f ∈ fs, f.Shaped room P ∧ f.isDisjunction = false) : (anyOf fs).Shaped room P := by
  match fs with
  | [] => exact absurd rfl hne
  | [f] => exact (h f (by simp)).1
  | f :: g :: gs => exact shaped_any_iff.2 ⟨by simp, h⟩

end Tree

namespace Grammar

mutual

theorem Operand.shaped : ∀ {room : Nat} {ts : List Token} {t : Tree}, Operand room ts t →
    t.Shaped room (Token.Carried ts) ∧ t.IsOperand
  | _, _, _, .value hk hne => by
    refine ⟨Tree.shaped_leaf_iff.2 ?_, rfl, rfl⟩
    exact ⟨hne, _, by simp, hk, rfl⟩
  | _, _, _, .field _ _ hk hne => by
    refine ⟨Tree.shaped_leaf_iff.2 ?_, rfl, rfl⟩
    exact ⟨hne, _, by simp, hk, rfl⟩
  | _, _, _, @Operand.negation room n ts t _ hop => by
    obtain ⟨hshaped, hoperand⟩ := hop.shaped
    have h : t.Shaped room (Token.Carried (n :: ts)) :=
      hshaped.mono fun u hu => List.mem_cons_of_mem n hu
    exact ⟨Tree.shaped_negation_iff.2 ⟨room, rfl, h, hoperand⟩, rfl, rfl⟩
  | _, _, _, @Operand.group room o c ts alternatives _ hdis _ => by
    obtain ⟨hne, halternatives⟩ := hdis.shaped
    have h : (Tree.anyOf alternatives).Shaped room (Token.Carried (o :: ts ++ [c])) :=
      (Tree.shaped_anyOf hne halternatives).mono fun u hu =>
        List.mem_append_left [c] (List.mem_cons_of_mem o hu)
    exact ⟨Tree.shaped_group_iff.2 ⟨room, rfl, h⟩, rfl, rfl⟩

theorem Conjunction.shaped : ∀ {room : Nat} {ts : List Token} {factors : List Tree},
    Conjunction room ts factors →
      factors ≠ [] ∧ ∀ f ∈ factors, f.Shaped room (Token.Carried ts) ∧ f.IsOperand
  | _, _, _, .one hop => ⟨by simp, fun f hf => List.mem_singleton.1 hf ▸ hop.shaped⟩
  | _, _, _, .beside hop hcon => by
    refine ⟨by simp, List.forall_mem_cons.2 ⟨?_, fun f hf => ?_⟩⟩
    · exact hop.shaped.imp_left fun h => h.mono fun u hu => List.mem_append_left _ hu
    · exact (hcon.shaped.2 f hf).imp_left fun h => h.mono fun u hu => List.mem_append_right _ hu
  | _, _, _, .joined hop _ hcon => by
    refine ⟨by simp, List.forall_mem_cons.2 ⟨?_, fun f hf => ?_⟩⟩
    · exact hop.shaped.imp_left fun h => h.mono fun u hu => List.mem_append_left _ hu
    · exact (hcon.shaped.2 f hf).imp_left fun h => h.mono fun u hu =>
        List.mem_append_right _ (List.mem_cons_of_mem _ hu)

theorem Disjunction.shaped : ∀ {room : Nat} {ts : List Token} {alternatives : List Tree},
    Disjunction room ts alternatives →
      alternatives ≠ [] ∧
        ∀ a ∈ alternatives, a.Shaped room (Token.Carried ts) ∧ a.isDisjunction = false
  | _, _, _, .one hcon => by
    obtain ⟨hne, hfactors⟩ := hcon.shaped
    exact ⟨by simp, fun a ha => List.mem_singleton.1 ha ▸ Tree.shaped_allOf hne hfactors⟩
  | _, _, _, .joined hcon _ hdis => by
    obtain ⟨hne, hfactors⟩ := hcon.shaped
    refine ⟨by simp, List.forall_mem_cons.2 ⟨?_, fun a ha => ?_⟩⟩
    · exact (Tree.shaped_allOf hne hfactors).imp_left fun h =>
        h.mono fun u hu => List.mem_append_left _ hu
    · exact (hdis.shaped.2 a ha).imp_left fun h => h.mono fun u hu =>
        List.mem_append_right _ (List.mem_cons_of_mem _ hu)

end

/-- The tree of a query has the shape that the grammar gives to its trees. -/
theorem Derives.shaped {ts : List Token} {t : Tree} (h : Derives ts t) :
    t.Shaped maxNesting (Token.Carried ts) := by
  obtain ⟨alternatives, hdis, rfl⟩ := h
  obtain ⟨hne, halternatives⟩ := hdis.shaped
  exact Tree.shaped_anyOf hne halternatives

end Grammar

end NoteQuery

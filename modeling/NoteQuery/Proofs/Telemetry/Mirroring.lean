import Mathlib.Algebra.BigOperators.Group.List.Basic
import Mathlib.Algebra.Group.Basic
import Mathlib.Data.List.DropRight
import Mathlib.Data.List.Induction
import Mathlib.Data.List.Nodup
import Mathlib.Data.Rat.Defs
import Mathlib.Tactic.Abel
import NoteQuery.Proofs.Note.Vocabulary
import NoteQuery.Telemetry.Bridge

/-!
# What the two sides of a gauge tell

A gauge is followed by an instrument to which amounts are added. Setting the gauge adds the
difference from what was set before, but an increment does not count as set: it is added when it is
made, and setting the gauge does not take it back. So the instrument tells what the gauge tells and,
on top of it, all increments that were made before the gauge was last set for the same labels
(`Bridge.mirrors_iff`).
-/

set_option autoImplicit false

namespace NoteQuery

/-! ## Labels -/

namespace Labels

variable {labels others : Labels}

/-- Whether every name stands once. -/
def Distinct (labels : Labels) : Prop :=
  (labels.map Prod.fst).Nodup

instance (labels : Labels) : Decidable labels.Distinct :=
  inferInstanceAs (Decidable (List.Nodup _))

theorem Distinct.nodup (h : labels.Distinct) : labels.Nodup :=
  List.Nodup.of_map Prod.fst h

theorem before_trans (x y z : Text × Text) (hxy : Text.before x.1 y.1 = true)
    (hyz : Text.before y.1 z.1 = true) : Text.before x.1 z.1 = true := by
  rw [Text.before_iff_lt] at hxy hyz ⊢
  exact lt_trans hxy hyz

theorem mem_sorted {x : Text × Text} : x ∈ labels.sorted ↔ x ∈ labels :=
  mem_ascending

theorem Distinct.pairwise_sorted (h : labels.Distinct) :
    labels.sorted.Pairwise fun x y => Text.before x.1 y.1 = true := by
  refine pairwise_ascending before_trans fun x hx y hy => ?_
  simp only [Text.before_iff_lt]
  exact (lt_trichotomy x.1 y.1).imp_right (Or.imp_left (List.inj_on_of_nodup_map h hx hy))

/-- Labels are told apart by their names and values, and not by the order in which they are given. -/
theorem Distinct.sorted_eq_iff (h : labels.Distinct) (h' : others.Distinct) :
    labels.sorted = others.sorted ↔ labels.Perm others := by
  constructor
  · intro heq
    rw [List.perm_ext_iff_of_nodup h.nodup h'.nodup]
    intro x
    rw [← mem_sorted, heq, mem_sorted]
  · intro hperm
    have hirrefl : ∀ x : Text × Text, ¬ Text.before x.1 x.1 = true := by
      intro x
      rw [Text.before_iff_lt]
      exact lt_irrefl x.1
    refine eq_of_pairwise_of_mem_iff hirrefl before_trans h.pairwise_sorted h'.pairwise_sorted ?_
    intro x
    rw [mem_sorted, mem_sorted, hperm.mem_iff]

end Labels

/-! ## Changes of a gauge -/

variable {α : Type}

namespace MetricChange

/-- Whether a change is an increment or a setting, for labels with distinct names. -/
def OfGauge (c : Labels × MetricChange α) : Prop :=
  c.1.Distinct ∧ ∀ value, c.2 ≠ .observe value

/-- The value to which a change sets the metric for some labels. -/
def setFor? (labels : Labels) (c : Labels × MetricChange α) : Option α :=
  match c.2 with
  | .set value => if c.1.Perm labels then some value else none
  | .inc _ | .observe _ => none

/-- The changes up to the last one that sets the metric for some labels. -/
def upToLastSet (labels : Labels) (changes : List (Labels × MetricChange α)) :
    List (Labels × MetricChange α) :=
  changes.rdropWhile fun c => (setFor? labels c).isNone

theorem upToLastSet_concat (labels : Labels) (changes : List (Labels × MetricChange α))
    (c : Labels × MetricChange α) :
    upToLastSet labels (changes ++ [c]) =
      if (setFor? labels c).isNone then upToLastSet labels changes else changes ++ [c] :=
  List.rdropWhile_concat _ _ c

variable [AddCommGroup α]

/-- What a change adds to the metric for some labels. -/
def incrementFor (labels : Labels) (c : Labels × MetricChange α) : α :=
  match c.2 with
  | .inc amount => if c.1.Perm labels then amount else 0
  | .set _ | .observe _ => 0

/-- All that changes add to the metric for some labels. -/
def incremented (labels : Labels) (changes : List (Labels × MetricChange α)) : α :=
  (changes.map (incrementFor labels)).sum

theorem incremented_concat (labels : Labels) (changes : List (Labels × MetricChange α))
    (c : Labels × MetricChange α) :
    incremented labels (changes ++ [c]) = incremented labels changes + incrementFor labels c := by
  simp [incremented]

theorem incrementFor_of_setFor? {labels : Labels} {c : Labels × MetricChange α} {value : α}
    (h : setFor? labels c = some value) : incrementFor labels c = 0 := by
  obtain ⟨own, change⟩ := c
  cases change with
  | inc _ => exact absurd h (by simp [setFor?])
  | observe _ | set _ => rfl

end MetricChange

open MetricChange

variable [AddCommGroup α]

/-- What a gauge shows for labels after some changes: nothing at first, and then what was set last
with what was added behind that. -/
structure IsGauge (value : List (Labels × MetricChange α) → Labels → α) : Prop where
  start : ∀ labels, value [] labels = 0
  inc : ∀ changes own amount labels, value (changes ++ [(own, .inc amount)]) labels =
    if own.Perm labels then value changes labels + amount else value changes labels
  set : ∀ changes own new labels, value (changes ++ [(own, .set new)]) labels =
    if own.Perm labels then new else value changes labels

/-- The value of a gauge that takes one change after another. -/
def shown (history : List (Labels × MetricChange α)) (labels : Labels) : α :=
  history.foldl (fun value c => (setFor? labels c).getD (value + incrementFor labels c)) 0

theorem isGauge_shown : IsGauge (shown : List (Labels × MetricChange α) → Labels → α) where
  start _ := rfl
  inc history own amount labels := by
    rw [shown, List.foldl_append]
    simp only [List.foldl_cons, List.foldl_nil, setFor?, incrementFor, Option.getD_none]
    split
    · rfl
    · exact add_zero _
  set history own new labels := by
    rw [shown, List.foldl_append]
    simp only [List.foldl_cons, List.foldl_nil, setFor?, incrementFor, add_zero]
    split <;> rfl

theorem IsGauge.concat {value : List (Labels × MetricChange α) → Labels → α} (h : IsGauge value)
    (labels : Labels) (changes : List (Labels × MetricChange α)) {c : Labels × MetricChange α}
    (hc : OfGauge c) :
    value (changes ++ [c]) labels =
      (setFor? labels c).getD (value changes labels + incrementFor labels c) := by
  obtain ⟨own, change⟩ := c
  cases change with
  | inc amount =>
    rw [h.inc]
    simp only [setFor?, incrementFor, Option.getD_none]
    split
    · rfl
    · rw [add_zero]
  | observe seen => exact absurd rfl (hc.2 seen)
  | set new =>
    rw [h.set]
    simp only [setFor?, incrementFor, add_zero]
    split <;> rfl

/-! ## What a bridge does -/

namespace BridgeCall

/-- The change of the metric that a call makes. -/
def change? : BridgeCall α → Option (Labels × MetricChange α)
  | .change made labels => some (labels, made)
  | .create _ | .add _ _ | .record _ _ => none

/-- The amount that a call adds to the instrument for some labels. -/
def addedFor (labels : Labels) : BridgeCall α → α
  | .add amount own => if own.Perm labels then amount else 0
  | .change _ _ | .create _ | .record _ _ => 0

/-- The changes of the metric, in order. -/
def changes (calls : List (BridgeCall α)) : List (Labels × MetricChange α) :=
  calls.filterMap change?

/-- All amounts that are added to the instrument for some labels. -/
def total (labels : Labels) (calls : List (BridgeCall α)) : α :=
  (calls.map (addedFor labels)).sum

omit [AddCommGroup α] in
theorem changes_change (own : Labels) (made : MetricChange α) (calls : List (BridgeCall α)) :
    changes (.change made own :: calls) = (own, made) :: changes calls :=
  rfl

theorem total_append (labels : Labels) (calls more : List (BridgeCall α)) :
    total labels (calls ++ more) = total labels calls + total labels more := by
  simp [total]

theorem total_change (labels own : Labels) (made : MetricChange α) (calls : List (BridgeCall α)) :
    total labels (.change made own :: calls) = total labels calls := by
  simp [total, addedFor]

end BridgeCall

open BridgeCall

namespace Bridge

variable {b : Bridge α} {labels : Labels} {c : Labels × MetricChange α}

/-- The kind of metric that an up-down counter follows. -/
def gaugeKind : Text := "gauge".toList

omit [AddCommGroup α] in
/-- The instrument of a gauge takes every call. -/
theorem forward_of_gauge (hb : b.kind = gaugeKind) (call : BridgeCall α) :
    b.forward call =
      ({ b with made := true }, (if b.made then [] else [.create .upDownCounter]) ++ [call],
        none) := by
  obtain ⟨kind, made, last⟩ := b
  obtain rfl : kind = gaugeKind := hb
  cases made <;> rfl

/-- An amount goes to the instrument once, for the labels that it is for. -/
theorem forward_add (hb : b.kind = gaugeKind) (own : Labels) (amount : α) :
    ∃ calls, b.forward (.add amount own) = ({ b with made := true }, calls, none) ∧
      changes calls = [] ∧
      ∀ labels, total labels calls = if own.Perm labels then amount else 0 := by
  refine ⟨_, forward_of_gauge hb _, ?_, fun labels => ?_⟩
  · cases b.made <;> rfl
  · cases b.made <;> simp [total, addedFor]

variable [DecidableEq α]

/-- The elements of a commutative group are amounts that are added and taken away exactly. -/
instance (priority := low) exactAmount : Amount α where
  zero := 0
  isZero a := decide (a = 0)

/-- What a gauge and its instrument do for a change, as far as it concerns some labels. -/
structure Records (b : Bridge α) (labels : Labels) (c : Labels × MetricChange α)
    (r : Effect α) : Prop where
  kind : r.1.kind = b.kind
  error : r.2.2 = none
  /-- The gauge is changed once. -/
  changes : changes r.2.1 = [c]
  /-- The instrument takes the increment, or the difference from what was set before. -/
  total : total labels r.2.1 =
    incrementFor labels c + (setFor? labels c).elim 0 fun value => value - b.lastValue labels
  lastValue : r.1.lastValue labels = (setFor? labels c).getD (b.lastValue labels)

theorem records_inc (hb : b.kind = gaugeKind) (own : Labels) (amount : α) :
    Records b labels (own, .inc amount) (b.record own (.inc amount)) := by
  obtain ⟨calls, hforward, hchanges, htotal⟩ := forward_add hb own amount
  have hrecord : b.record own (.inc amount) =
      ({ b with made := true }, .change (.inc amount) own :: calls, none) := by
    rw [record, follow, hforward]
  rw [hrecord]
  refine ⟨rfl, rfl, by rw [changes_change, hchanges], ?_, rfl⟩
  rw [total_change, htotal]
  exact (add_zero _).symm

/-- The instrument follows a setting by the difference, and is left alone where there is none. -/
theorem follow_set (hb : b.kind = gaugeKind) (own : Labels) (value : α) :
    ∃ made calls,
      b.follow own (.set value) =
        ({ b with made := made, last := setMember own.sorted value b.last }, calls, none) ∧
      changes calls = [] ∧
      ∀ labels, total labels calls =
        if own.Perm labels then value - b.lastValue own else 0 := by
  by_cases hzero : value - b.lastValue own = 0
  · refine ⟨b.made, [], ?_, rfl, fun labels => ?_⟩
    · simp only [follow, Amount.isZero, hzero, decide_true, if_true]
    · rw [hzero, ite_self]
      rfl
  · obtain ⟨calls, hforward, hcalls⟩ := forward_add hb own (value - b.lastValue own)
    refine ⟨true, calls, ?_, hcalls⟩
    simp only [follow, Amount.isZero, hzero, decide_false, Bool.false_eq_true, if_false, hforward]

theorem records_set (hb : b.kind = gaugeKind) (hlabels : labels.Distinct) {own : Labels}
    (hown : own.Distinct) (value : α) :
    Records b labels (own, .set value) (b.record own (.set value)) := by
  obtain ⟨made, calls, hfollow, hchanges, htotal⟩ := follow_set hb own value
  have hrecord : b.record own (.set value) =
      ({ b with made := made, last := setMember own.sorted value b.last },
        .change (.set value) own :: calls, none) := by
    rw [record, hfollow]
  rw [hrecord]
  refine ⟨rfl, rfl, by rw [changes_change, hchanges], ?_, ?_⟩
  · rw [total_change, htotal]
    simp only [incrementFor, setFor?, zero_add]
    split
    · rename_i hperm
      rw [lastValue, (hown.sorted_eq_iff hlabels).2 hperm]
      rfl
    · rfl
  · simp only [lastValue, getMember?_setMember, hown.sorted_eq_iff hlabels, setFor?]
    split <;> rfl

/-- A gauge and its instrument are changed as the change says. -/
theorem record_of_gauge (hb : b.kind = gaugeKind) (hlabels : labels.Distinct) (hc : OfGauge c) :
    Records b labels c (b.record c.1 c.2) := by
  obtain ⟨own, change⟩ := c
  cases change with
  | inc amount => exact records_inc hb own amount
  | observe value => exact absurd rfl (hc.2 value)
  | set value => exact records_set hb hlabels hc.1 value

/-! ## Runs -/

theorem run_concat (b : Bridge α) (changes : List (Labels × MetricChange α))
    (c : Labels × MetricChange α) :
    b.run (changes ++ [c]) =
      (((b.run changes).1.record c.1 c.2).1,
        (b.run changes).2 ++ ((b.run changes).1.record c.1 c.2).2.1) := by
  unfold run
  rw [List.foldl_append]
  rfl

/-- What a gauge and its instrument tell for some labels after some changes. -/
structure Tells (value : List (Labels × MetricChange α) → Labels → α) (labels : Labels)
    (history : List (Labels × MetricChange α)) (r : Bridge α × List (BridgeCall α)) : Prop where
  kind : r.1.kind = gaugeKind
  changes : changes r.2 = history
  /-- The instrument tells what was set last, and all increments. -/
  total : total labels r.2 = r.1.lastValue labels + incremented labels history
  /-- The gauge tells what was set last, and the increments behind that. -/
  value : value history labels + incremented labels (upToLastSet labels history) =
    r.1.lastValue labels + incremented labels history

variable {value : List (Labels × MetricChange α) → Labels → α}
  {history : List (Labels × MetricChange α)} {r : Bridge α × List (BridgeCall α)}

theorem tells_new (h : IsGauge value) (labels : Labels) :
    Tells value labels [] ((new gaugeKind).run []) where
  kind := rfl
  changes := rfl
  total := (add_zero _).symm
  value := by
    rw [h.start]
    rfl

theorem Tells.concat (ht : Tells value labels history r) (h : IsGauge value)
    (hlabels : labels.Distinct) (hc : OfGauge c) :
    Tells value labels (history ++ [c])
      ((r.1.record c.1 c.2).1, r.2 ++ (r.1.record c.1 c.2).2.1) := by
  have hrecords := record_of_gauge ht.kind hlabels hc
  refine ⟨hrecords.kind.trans ht.kind, ?_, ?_, ?_⟩
  · rw [BridgeCall.changes, List.filterMap_append]
    exact congrArg₂ (· ++ ·) ht.changes hrecords.changes
  · rw [total_append, ht.total, hrecords.total, hrecords.lastValue, incremented_concat]
    cases hset : setFor? labels c with
    | none => simp only [Option.elim_none, Option.getD_none]; abel
    | some new =>
      simp only [Option.elim_some, Option.getD_some, incrementFor_of_setFor? hset]
      abel
  · rw [h.concat labels history hc, hrecords.lastValue, upToLastSet_concat]
    cases hset : setFor? labels c with
    | none =>
      have hvalue := ht.value
      simp only [Option.isNone_none, if_true, Option.getD_none, incremented_concat]
      rw [add_right_comm, hvalue, add_assoc]
    | some new => rfl

/-- A gauge and its instrument after any changes. -/
theorem tells_run (h : IsGauge value) (hlabels : labels.Distinct)
    (hhistory : ∀ c ∈ history, OfGauge c) :
    Tells value labels history ((new gaugeKind).run history) := by
  induction history using List.reverseRecOn with
  | nil => exact tells_new h labels
  | append_singleton history c ih =>
    obtain ⟨hfront, hlast⟩ := List.forall_mem_append.1 hhistory
    rw [run_concat]
    exact (ih hfront).concat h hlabels (hlast c List.mem_cons_self)

/-- After any increments and settings of a gauge, the amounts that were added to its instrument for
some labels come to what the gauge shows for them and, on top of it, the increments that were made
before the gauge was last set for them. So the two tell the same exactly if those increments come to
nothing. -/
theorem mirrors_iff (hvalue : IsGauge value) (hhistory : ∀ c ∈ history, OfGauge c)
    (hlabels : labels.Distinct) :
    let calls := ((new gaugeKind).run history).2
    changes calls = history ∧
      total labels calls =
        value (changes calls) labels + incremented labels (upToLastSet labels history) ∧
      (total labels calls = value (changes calls) labels ↔
        incremented labels (upToLastSet labels history) = 0) := by
  intro calls
  have htells := tells_run hvalue hlabels hhistory
  have hchanges : changes calls = history := htells.changes
  have htotal : total labels calls =
      value history labels + incremented labels (upToLastSet labels history) :=
    htells.total.trans htells.value.symm
  rw [hchanges]
  exact ⟨rfl, htotal, htotal ▸ add_eq_left⟩

/-- Labels in two orders, other labels in between, and an increment on either side of a setting. -/
theorem mirrors_iff_reordered :
    let labels : Labels := [("engine".toList, "a".toList), ("status".toList, "ok".toList)]
    let other : Labels := [("engine".toList, "b".toList), ("status".toList, "ok".toList)]
    let history : List (Labels × MetricChange ℚ) := [(labels, .inc (3 / 2)), (other, .set 4),
      (labels.reverse, .set 5), (other, .inc 2), (labels, .inc (1 / 4))]
    let calls := ((new gaugeKind).run history).2
    (IsGauge (shown : List (Labels × MetricChange ℚ) → Labels → ℚ) ∧
        (∀ c ∈ history, OfGauge c) ∧ labels.Distinct ∧ other.Distinct) ∧
      total labels calls = shown (changes calls) labels + 3 / 2 ∧
      total other calls = shown (changes calls) other := by
  intro labels other history calls
  have hlabels : labels.Distinct := by decide
  have hother : other.Distinct := by decide
  have hhistory : ∀ c ∈ history, OfGauge c := by
    simp only [history, List.forall_mem_cons, OfGauge, ne_eq, reduceCtorEq, not_false_eq_true,
      implies_true, and_true]
    exact ⟨hlabels, hother, by decide, hother, hlabels, by simp⟩
  obtain ⟨-, htotal, -⟩ := mirrors_iff isGauge_shown hhistory hlabels
  obtain ⟨-, -, hsame⟩ := mirrors_iff isGauge_shown hhistory hother
  refine ⟨⟨isGauge_shown, hhistory, hlabels, hother⟩, htotal.trans ?_, hsame.2 ?_⟩
  · exact congrArg _ (by decide +kernel)
  · decide +kernel

/-- An increment that is made before the gauge is set stays in the instrument. -/
theorem overwritten_increment_kept :
    let labels : Labels := [("engine".toList, "a".toList)]
    let calls := ((new gaugeKind).run [(labels, .inc (5 : ℚ)), (labels, .set 7)]).2
    shown (changes calls) labels = 7 ∧ total labels calls = 12 ∧ (7 : ℚ) ≠ 12 := by
  decide +kernel

end Bridge

end NoteQuery

import Mathlib.Data.List.Forall2
import NoteQuery.Text.Basic
import NoteQuery.Text.Occurrence

/-!
# Occurrences cover the matches

A needle matches in a span of a text that is as long as the needle and whose characters are related
to its own, one by one (`Text.MatchesIn`). Matches may overlap. A cover (`Text.Covers`) takes them
greedily from left to right: its spans are matches that do not overlap, and every match starts in
one of them. A text has only one cover for a needle (`Covers.unique`), and the occurrences are that
cover (`Text.occurrences_cover`).
-/

set_option autoImplicit false

namespace NoteQuery

attribute [ext] Span

namespace Text

/-! ## Matches -/

/-- Whether a needle matches in a span of a text. -/
structure MatchesIn (mode : CaseMode) (needle text : Text) (s : Span) : Prop where
  /-- The span is not empty. -/
  nonempty : s.start < s.stop
  /-- It is as long as the needle. -/
  length_eq : s.stop - s.start = needle.length
  /-- It lies in the text. -/
  inside : s.stop ≤ text.length
  /-- Its characters match those of the needle one by one. -/
  related : List.Forall₂ (fun n c => mode.related n c = true) needle (slice text s.start s.stop)

variable {mode : CaseMode} {needle text : Text} {s t : Span}

theorem slice_add (text : Text) (n k : Nat) : slice text n (n + k) = (text.drop n).take k := by
  rw [slice, List.drop_take, Nat.add_sub_cancel_left]

/-- A text begins with a needle if its first characters match those of the needle one by one. -/
theorem beginsWith_iff :
    beginsWith mode needle text = true ↔
      List.Forall₂ (fun n c => mode.related n c = true) needle (text.take needle.length) := by
  induction needle generalizing text with
  | nil => exact iff_of_true rfl List.Forall₂.nil
  | cons n needle ih =>
    cases text with
    | nil => exact iff_of_false Bool.false_ne_true fun h => nomatch h
    | cons c text =>
      rw [beginsWith, Bool.and_eq_true, ih, List.length_cons, List.take_succ_cons,
        List.forall₂_cons]

theorem MatchesIn.stop_eq (h : MatchesIn mode needle text s) :
    s.stop = s.start + needle.length := by
  have hnonempty := h.nonempty
  have hlength := h.length_eq
  omega

/-- Two matches that start together are one. -/
theorem MatchesIn.eq_of_start_eq (hs : MatchesIn mode needle text s)
    (ht : MatchesIn mode needle text t) (h : s.start = t.start) : s = t := by
  have hstop : s.stop = t.stop := by rw [hs.stop_eq, ht.stop_eq, h]
  exact Span.ext h hstop

theorem MatchesIn.beginsWith (h : MatchesIn mode needle text s) :
    beginsWith mode needle (text.drop s.start) = true := by
  have hrelated := h.related
  rw [h.stop_eq, slice_add] at hrelated
  exact beginsWith_iff.2 hrelated

theorem matchesIn_of_beginsWith (hne : needle ≠ []) {n : Nat}
    (h : beginsWith mode needle (text.drop n) = true) :
    MatchesIn mode needle text ⟨n, n + needle.length⟩ := by
  have hrelated := beginsWith_iff.1 h
  have hpos := List.length_pos_iff.2 hne
  have hlength := hrelated.length_eq
  rw [List.length_take, List.length_drop] at hlength
  refine ⟨Nat.lt_add_of_pos_right hpos, Nat.add_sub_cancel_left n needle.length, ?_, ?_⟩
  · show n + needle.length ≤ text.length
    omega
  · rwa [slice_add]

/-! ## Covers -/

/-- Whether some spans cover the matches of a needle that do not start in front of an offset,
greedily from left to right. -/
structure Covers (mode : CaseMode) (needle text : Text) (offset : Nat) (spans : List Span) :
    Prop where
  /-- Every span is a match and does not start in front of the offset. -/
  sound : ∀ s ∈ spans, offset ≤ s.start ∧ MatchesIn mode needle text s
  /-- No span starts before the one in front of it has stopped. -/
  ordered : spans.Pairwise fun s t => s.stop ≤ t.start
  /-- No match starts in a gap: neither in front of the first span, nor from the end of one up to
  the start of the next, nor behind the last. -/
  complete : ∀ m, MatchesIn mode needle text m → offset ≤ m.start →
    ∃ s ∈ spans, s.start ≤ m.start ∧ m.start < s.stop

namespace Covers

variable {offset : Nat} {spans others : List Span}

/-- Behind the end of a text nothing is left to cover. -/
theorem of_length_le (h : text.length ≤ offset) : Covers mode needle text offset [] where
  sound _ hs := absurd hs List.not_mem_nil
  ordered := List.Pairwise.nil
  complete m hm hstart := by
    have hnonempty := hm.nonempty
    have hinside := hm.inside
    omega

theorem cons (h : Covers mode needle text s.stop spans) (hs : MatchesIn mode needle text s) :
    Covers mode needle text s.start (s :: spans) where
  sound := by
    refine List.forall_mem_cons.2 ⟨⟨Nat.le_refl _, hs⟩, fun t ht => ?_⟩
    obtain ⟨hstart, hmatch⟩ := h.sound t ht
    exact ⟨Nat.le_trans (Nat.le_of_lt hs.nonempty) hstart, hmatch⟩
  ordered := List.pairwise_cons.2 ⟨fun t ht => (h.sound t ht).1, h.ordered⟩
  complete m hm hstart := by
    by_cases hlt : m.start < s.stop
    · exact ⟨s, List.mem_cons_self, hstart, hlt⟩
    · obtain ⟨t, ht, hcovered⟩ := h.complete m hm (Nat.not_lt.1 hlt)
      exact ⟨t, List.mem_cons_of_mem s ht, hcovered⟩

theorem of_succ (h : Covers mode needle text (offset + 1) spans)
    (hno : ∀ m, MatchesIn mode needle text m → m.start ≠ offset) :
    Covers mode needle text offset spans where
  sound t ht := ⟨Nat.le_of_succ_le (h.sound t ht).1, (h.sound t ht).2⟩
  ordered := h.ordered
  complete m hm hstart := h.complete m hm (Nat.lt_of_le_of_ne hstart (hno m hm).symm)

/-- Behind its first span a cover is one of what is left. -/
theorem tail (h : Covers mode needle text offset (s :: spans)) :
    Covers mode needle text s.stop spans where
  sound t ht :=
    ⟨List.rel_of_pairwise_cons h.ordered ht, (h.sound t (List.mem_cons_of_mem s ht)).2⟩
  ordered := h.ordered.tail
  complete m hm hstart := by
    obtain ⟨hoffset, hs⟩ := h.sound s List.mem_cons_self
    have hnonempty := hs.nonempty
    obtain ⟨t, ht, hcovered⟩ := h.complete m hm (by omega)
    rcases List.mem_cons.1 ht with rfl | ht
    · omega
    · exact ⟨t, ht, hcovered⟩

/-- The first span of a cover is the leftmost match. -/
theorem start_le (h : Covers mode needle text offset (s :: spans)) {m : Span}
    (hm : MatchesIn mode needle text m) (hstart : offset ≤ m.start) : s.start ≤ m.start := by
  obtain ⟨t, ht, hle, -⟩ := h.complete m hm hstart
  rcases List.mem_cons.1 ht with rfl | ht
  · exact hle
  · have hnonempty := (h.sound s List.mem_cons_self).2.nonempty
    have hordered := List.rel_of_pairwise_cons h.ordered ht
    omega

/-- A text has one cover for a needle. -/
theorem unique (h : Covers mode needle text offset spans)
    (h' : Covers mode needle text offset others) : spans = others := by
  induction spans generalizing offset others with
  | nil =>
    cases others with
    | nil => rfl
    | cons t others =>
      obtain ⟨hstart, ht⟩ := h'.sound t List.mem_cons_self
      obtain ⟨s, hs, -⟩ := h.complete t ht hstart
      exact absurd hs List.not_mem_nil
  | cons s spans ih =>
    obtain ⟨hstart, hs⟩ := h.sound s List.mem_cons_self
    cases others with
    | nil =>
      obtain ⟨t, ht, -⟩ := h'.complete s hs hstart
      exact absurd ht List.not_mem_nil
    | cons t others =>
      obtain ⟨hstart', ht⟩ := h'.sound t List.mem_cons_self
      -- Both begin with the leftmost match, and behind it they cover the same.
      have hsame := Nat.le_antisymm (h.start_le ht hstart') (h'.start_le hs hstart)
      obtain rfl := hs.eq_of_start_eq ht hsame
      rw [ih h.tail h'.tail]

end Covers

/-! ## Occurrences -/

/-- What is found in the rest of a text covers it from behind the last occurrence on. -/
theorem covers_occurrencesFrom (hne : needle ≠ []) {offset : Nat} {rest : Text} (skip : Nat)
    (h : text.drop offset = rest) :
    Covers mode needle text (offset + skip) (occurrencesFrom mode needle offset skip rest) := by
  induction rest generalizing offset skip with
  | nil =>
    exact Covers.of_length_le (Nat.le_add_right_of_le (List.drop_eq_nil_iff.1 h))
  | cons c rest ih =>
    have hrest : text.drop (offset + 1) = rest := by rw [← List.tail_drop, h, List.tail_cons]
    cases skip with
    | succ k =>
      -- One offset further on there is one character less to skip: the cover starts where it did.
      have hskipped := ih k hrest
      rwa [Nat.add_right_comm] at hskipped
    | zero =>
      rw [occurrencesFrom]
      split
      · rename_i hbegins
        have hmatch := matchesIn_of_beginsWith hne (h ▸ hbegins)
        have hbehind := ih (needle.length - 1) hrest
        have hpos := List.length_pos_iff.2 hne
        rw [Nat.add_assoc, Nat.add_sub_cancel' hpos] at hbehind
        exact hbehind.cons hmatch
      · rename_i hbegins
        refine (ih 0 hrest).of_succ fun m hm hstart => hbegins ?_
        rw [← h, ← hstart]
        exact hm.beginsWith

theorem covers_occurrences (hne : needle ≠ []) (text : Text) :
    Covers mode needle text 0 (occurrences mode needle text) := by
  have hempty : needle.isEmpty ≠ true := fun h => hne (List.isEmpty_iff.1 h)
  rw [occurrences, if_neg hempty]
  exact covers_occurrencesFrom hne 0 List.drop_zero

/-- An occurrence lies in the text, and its characters match those of the needle one by one. -/
theorem of_mem_occurrences (h : s ∈ occurrences mode needle text) :
    s.stop ≤ text.length ∧
      List.Forall₂ (fun n c => mode.related n c = true) needle (slice text s.start s.stop) := by
  have hne : needle ≠ [] := by
    rintro rfl
    exact absurd h List.not_mem_nil
  have hmatch := ((covers_occurrences hne text).sound s h).2
  exact ⟨hmatch.inside, hmatch.related⟩

theorem occursIn_iff :
    occursIn mode needle text = true ↔ ∃ n, beginsWith mode needle (text.drop n) = true := by
  induction text with
  | nil => cases needle <;> simp [occursIn, beginsWith]
  | cons c text ih =>
    rw [occursIn, Bool.or_eq_true, ih]
    constructor
    · rintro (hbegins | ⟨n, hbegins⟩)
      · exact ⟨0, hbegins⟩
      · exact ⟨n + 1, hbegins⟩
    · rintro ⟨n, hbegins⟩
      cases n with
      | zero => exact .inl hbegins
      | succ n => exact .inr ⟨n, hbegins⟩

/-- A needle has an occurrence exactly if it occurs. -/
theorem occurrences_ne_nil_iff (hne : needle ≠ []) (text : Text) :
    occurrences mode needle text ≠ [] ↔ occursIn mode needle text = true := by
  have hcovers : Covers mode needle text 0 (occurrences mode needle text) :=
    covers_occurrences hne text
  rw [occursIn_iff]
  constructor
  · intro hnonempty
    obtain ⟨s, hs⟩ := List.exists_mem_of_ne_nil _ hnonempty
    exact ⟨s.start, (hcovers.sound s hs).2.beginsWith⟩
  · rintro ⟨n, hbegins⟩
    have hmatch := matchesIn_of_beginsWith hne hbegins
    obtain ⟨s, hs, -⟩ := hcovers.complete _ hmatch (Nat.zero_le n)
    exact List.ne_nil_of_mem hs

/-- The occurrences of a needle that is not empty are the cover of a text and the only one, and there
are some exactly if the needle occurs in the text. -/
theorem occurrences_cover (mode : CaseMode) {needle : Text} (hne : needle ≠ []) (text : Text) :
    Covers mode needle text 0 (occurrences mode needle text) ∧
      (∀ spans, Covers mode needle text 0 spans → spans = occurrences mode needle text) ∧
      (occurrences mode needle text ≠ [] ↔ occursIn mode needle text = true) := by
  have hcovers : Covers mode needle text 0 (occurrences mode needle text) :=
    covers_occurrences hne text
  exact ⟨hcovers, fun _ h => h.unique hcovers, occurrences_ne_nil_iff hne text⟩

/-- The Kelvin sign is alike to k. The needle matches at the front of the text, one character further
on, where the first match covers the second, and at the end. -/
theorem occurrences_cover_kelvin :
    let needle := "kk".toList
    let text := "k\u212akx\u212aK".toList
    let spans : List Span := [⟨0, 2⟩, ⟨4, 6⟩]
    needle ≠ [] ∧ occurrences .ignored needle text = spans ∧ Covers .ignored needle text 0 spans ∧
      (∀ others, Covers .ignored needle text 0 others → others = spans) ∧
      occursIn .ignored needle text = true := by
  intro needle text spans
  have hne : needle ≠ [] := by decide
  have hfound : occurrences .ignored needle text = spans := by decide +kernel
  obtain ⟨hcovers, hunique, hoccurs⟩ := occurrences_cover .ignored hne text
  rw [hfound] at hcovers hunique hoccurs
  exact ⟨hne, hfound, hcovers, hunique, hoccurs.1 (List.cons_ne_nil _ _)⟩

end Text

end NoteQuery

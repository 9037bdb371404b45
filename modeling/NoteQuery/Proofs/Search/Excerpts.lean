import NoteQuery.Search.Excerpt
import Mathlib.Data.List.Infix

/-!
# What an excerpt shows

Whatever the hit is, the window around it is a stretch of the text that is no longer than the limit,
reaches across the hit where that fits, and has an end inside a word only where no blank lies
between that end and the hit (`Excerpt.Frames`, `Excerpt.window_frames`). The excerpt is the window
without the white space at its ends, with dots where anything else is left out
(`Excerpt.build_cuts`).

Trimming does not stop at the hit: what is sure to be shown is the hit without the white space at
its own ends, and the whole hit where something that is not blank keeps it away from the ends of
the window (`Excerpt.build_shows`).
-/

set_option autoImplicit false

namespace NoteQuery

namespace Text

/-! ## Slices -/

section Slices

variable {t : Text} {a b c : Nat}

theorem length_slice (h : b ≤ t.length) : (slice t a b).length = b - a := by
  rw [slice, List.length_drop, List.length_take, Nat.min_eq_left h]

theorem take_append_slice (h : a ≤ b) : t.take a ++ slice t a b = t.take b := by
  have hsplit := List.take_append_drop a (t.take b)
  rwa [List.take_take, Nat.min_eq_left h] at hsplit

theorem slice_append_slice (hab : a ≤ b) (hbc : b ≤ c) :
    slice t a b ++ slice t b c = slice t a c := by
  have hfront : t.take a ++ (slice t a b ++ slice t b c) = t.take a ++ slice t a c := by
    rw [← List.append_assoc, take_append_slice hab, take_append_slice hbc,
      take_append_slice (Nat.le_trans hab hbc)]
  exact List.append_cancel_left hfront

theorem take_of_eq_append {u v : Text} (h : t = u ++ v) (ha : a = u.length) : t.take a = u := by
  rw [h, ha, List.take_left]

theorem drop_of_eq_append {u v : Text} (h : t = u ++ v) (ha : a = u.length) : t.drop a = v := by
  rw [h, ha, List.drop_left]

theorem eq_take_append_slice (h : a ≤ b) : t = t.take a ++ (slice t a b ++ t.drop b) := by
  rw [← List.append_assoc, take_append_slice h, List.take_append_drop]

theorem mem_slice_of_eq_append {u v : Text} {d : Char} (h : t = u ++ d :: v) (ha : a ≤ u.length)
    (hb : u.length < b) : d ∈ slice t a b := by
  refine List.mem_iff_getElem?.2 ⟨u.length - a, ?_⟩
  rw [slice, List.getElem?_drop, Nat.add_sub_cancel' ha, List.getElem?_take_of_lt hb, h,
    List.getElem?_append_right (Nat.le_refl _), Nat.sub_self, List.getElem?_cons_zero]

theorem allBlank_eq_false_of_mem {d : Char} (h : d ∈ t) (hd : isBlank d = false) :
    allBlank t = false := by
  refine List.all_eq_false.2 ⟨d, h, ?_⟩
  simp [hd]

theorem between_natCast (ha : a ≤ t.length) (hb : b ≤ t.length) : between t a b = slice t a b := by
  have hposition : ∀ n : Nat, n ≤ t.length → position t.length n = n := by
    intro n hn
    rw [position, if_neg (by omega), Int.toNat_natCast, Nat.min_eq_left hn]
  rw [between, hposition a ha, hposition b hb]

end Slices

/-! ## Trimming -/

theorem head?_trimLeft (t : Text) : ∀ c ∈ (trimLeft t).head?, isBlank c = false := by
  intro c hc
  have hhead := List.head?_dropWhile_not isBlank t
  rwa [← trimLeft, Option.mem_def.1 hc] at hhead

theorem exists_eq_append_trimLeft (t : Text) :
    ∃ x, t = x ++ trimLeft t ∧ ∀ c ∈ x, isBlank c = true :=
  ⟨t.takeWhile isBlank, List.takeWhile_append_dropWhile.symm,
    List.all_eq_true.1 List.all_takeWhile⟩

theorem getLast?_trimRight (t : Text) : ∀ c ∈ (trimRight t).getLast?, isBlank c = false := by
  intro c hc
  rw [trimRight, List.getLast?_reverse] at hc
  exact head?_trimLeft t.reverse c hc

theorem exists_eq_trimRight_append (t : Text) :
    ∃ y, t = trimRight t ++ y ∧ ∀ c ∈ y, isBlank c = true := by
  obtain ⟨y, hy, hblank⟩ := exists_eq_append_trimLeft t.reverse
  refine ⟨y.reverse, ?_, fun c hc => hblank c (List.mem_reverse.1 hc)⟩
  calc t = (y ++ trimLeft t.reverse).reverse := by rw [← hy, List.reverse_reverse]
    _ = trimRight t ++ y.reverse := List.reverse_append

/-- A text is what trimming leaves of it between white space. -/
theorem exists_eq_append_trim (t : Text) :
    ∃ x y, t = x ++ (trim t ++ y) ∧ (∀ c ∈ x, isBlank c = true) ∧ ∀ c ∈ y, isBlank c = true := by
  obtain ⟨x, hx, hxblank⟩ := exists_eq_append_trimLeft t
  obtain ⟨y, hy, hyblank⟩ := exists_eq_trimRight_append (trimLeft t)
  refine ⟨x, y, ?_, hxblank, hyblank⟩
  rw [trim, ← hy]
  exact hx

theorem head?_trim (t : Text) : ∀ c ∈ (trim t).head?, isBlank c = false := by
  intro c hc
  obtain ⟨y, hy, -⟩ := exists_eq_trimRight_append (trimLeft t)
  refine head?_trimLeft t c ?_
  rw [hy, ← trim, List.head?_append, Option.mem_def.1 hc]
  rfl

theorem getLast?_trim (t : Text) : ∀ c ∈ (trim t).getLast?, isBlank c = false :=
  getLast?_trimRight (trimLeft t)

theorem trim_isInfix (t : Text) : trim t <:+: t := by
  obtain ⟨x, y, ht, -, -⟩ := exists_eq_append_trim t
  exact ⟨x, y, by rw [List.append_assoc, ← ht]⟩

/-- A part of a text survives trimming if the text has characters that are not blank up to the
first one of the part, and from the last one of it. -/
theorem infix_trim {t u v w front back : Text} (ht : t = u ++ (v ++ w)) (hfront : front <+: t)
    (hle : front.length ≤ u.length + 1) (hblank : allBlank front = false) (hback : back <:+ t)
    (hle' : back.length ≤ w.length + 1) (hblank' : allBlank back = false) : v <:+: trim t := by
  obtain ⟨x, y, hxy, hx, hy⟩ := exists_eq_append_trim t
  have hxu : x.length ≤ u.length := by
    by_contra hlt
    have hpre := List.prefix_of_prefix_length_le hfront ⟨_, hxy.symm⟩ (by omega)
    have hall : allBlank front = true :=
      List.all_eq_true.2 fun c hc => hx c (hpre.subset hc)
    rw [hblank] at hall
    exact absurd hall (by simp)
  have hyw : y.length ≤ w.length := by
    by_contra hlt
    have hsuf := List.suffix_of_suffix_length_le hback
      ⟨x ++ trim t, by rw [List.append_assoc, ← hxy]⟩ (by omega)
    have hall : allBlank back = true :=
      List.all_eq_true.2 fun c hc => hy c (hsuf.subset hc)
    rw [hblank'] at hall
    exact absurd hall (by simp)
  obtain ⟨u', rfl⟩ : x <+: u :=
    List.prefix_of_prefix_length_le ⟨_, hxy.symm⟩ ⟨_, ht.symm⟩ hxu
  obtain ⟨w', rfl⟩ : y <:+ w :=
    List.suffix_of_suffix_length_le ⟨x ++ trim t, by rw [List.append_assoc, ← hxy]⟩
      ⟨x ++ u' ++ v, by rw [List.append_assoc, ← ht]⟩ hyw
  refine ⟨u', w', ?_⟩
  have hcancel : x ++ (u' ++ v ++ w' ++ y) = x ++ (trim t ++ y) := by
    rw [← hxy, ht]
    simp
  exact List.append_cancel_right (List.append_cancel_left hcancel)

/-- What trimming leaves of a part survives the trimming of the whole. -/
theorem trim_infix_trim (u v w : Text) : trim v <:+: trim (u ++ (v ++ w)) := by
  obtain ⟨x, y, hv, -, -⟩ := exists_eq_append_trim v
  by_cases hnil : trim v = []
  · rw [hnil]
    exact List.nil_infix
  · have hhead := head?_trim v _ (List.head?_eq_some_head hnil)
    have hlast := getLast?_trim v _ (List.getLast?_eq_some_getLast hnil)
    have hsplit : u ++ (v ++ w) = (u ++ x) ++ (trim v ++ (y ++ w)) := by
      conv_lhs => rw [hv]
      simp
    have hfront : (u ++ x) ++ [(trim v).head hnil] <+: u ++ (v ++ w) := by
      refine ⟨(trim v).tail ++ (y ++ w), ?_⟩
      rw [hsplit, List.append_assoc, ← List.append_assoc [_], List.singleton_append,
        List.cons_head_tail]
    have hback : [(trim v).getLast hnil] ++ (y ++ w) <:+ u ++ (v ++ w) := by
      refine ⟨(u ++ x) ++ (trim v).dropLast, ?_⟩
      rw [hsplit, List.append_assoc, ← List.append_assoc (trim v).dropLast,
        List.dropLast_concat_getLast]
    -- what is left of the part begins and ends with characters that are not blank
    refine infix_trim hsplit hfront (by simp [Nat.add_assoc]) ?_ hback (by simp) ?_
    · simp [allBlank, hhead]
    · simp [allBlank, hlast]

/-! ## Runs of blanks -/

/-- No character of a text is blank, or a first run of blanks stands behind what is not. -/
theorem firstRun_cases (u : Text) :
    (u.dropWhile (!isBlank ·) = [] ∧ ∀ c ∈ u, isBlank c = false) ∨
      ∃ run rest, u = u.takeWhile (!isBlank ·) ++ (run ++ rest) ∧
        u.dropWhile (!isBlank ·) = run ++ rest ∧ (run ++ rest).takeWhile isBlank = run ∧
        run ≠ [] ∧ ∀ c ∈ run, isBlank c = true := by
  have hsplit := @List.takeWhile_append_dropWhile _ (!isBlank ·) u
  have hhead := List.head?_dropWhile_not (!isBlank ·) u
  cases hrest : u.dropWhile (!isBlank ·) with
  | nil =>
    left
    refine ⟨rfl, ?_⟩
    intro c hc
    rw [hrest, List.append_nil] at hsplit
    rw [← hsplit] at hc
    simpa using List.all_eq_true.1 List.all_takeWhile c hc
  | cons d rest =>
    right
    rw [hrest] at hhead
    have hd : isBlank d = true := by simpa using hhead
    have hrun := @List.takeWhile_append_dropWhile _ isBlank (d :: rest)
    refine ⟨(d :: rest).takeWhile isBlank, (d :: rest).dropWhile isBlank, ?_, hrun.symm, ?_, ?_,
      List.all_eq_true.1 List.all_takeWhile⟩
    · rw [hrun, ← hrest, hsplit]
    · rw [hrun]
    · simp [hd]

end Text

namespace Excerpt

variable {t : Text} {s e l r limit : Nat}

/-! ## Blanks beside the hit -/

theorem clamp_natCast (h : l ≤ t.length) : clamp t l = l := by
  rw [clamp, Int.toNat_natCast, Nat.min_eq_left h]

/-- The first run of blanks between two offsets ends behind a blank; where there is none, no
character between them is blank. -/
theorem firstBlankEnd?_cases (hlr : l ≤ r) (hr : r ≤ t.length) :
    (firstBlankEnd? t l r = none ∧ ∀ c ∈ Text.slice t l r, Text.isBlank c = false) ∨
      ∃ n : Nat, firstBlankEnd? t l r = some n ∧ l ≤ n ∧ n ≤ r ∧
        ∀ c ∈ (t.take n).getLast?, Text.isBlank c = true := by
  have hlength := Text.length_slice (a := l) hr
  have hsplit := Text.eq_take_append_slice (t := t) hlr
  have hfront : (t.take l).length = l := List.length_take_of_le (Nat.le_trans hlr hr)
  unfold firstBlankEnd?
  simp only [clamp_natCast hr, clamp_natCast (Nat.le_trans hlr hr)]
  rcases Text.firstRun_cases (Text.slice t l r) with
    ⟨hnil, hnone⟩ | ⟨run, rest, hregion, hrest, hrun, hne, hblank⟩
  · rw [hnil]
    exact .inl ⟨rfl, hnone⟩
  · right
    rw [hrest, hrun]
    generalize (Text.slice t l r).takeWhile (!Text.isBlank ·) = word at hregion ⊢
    rw [hregion] at hlength hsplit
    simp only [List.length_append] at hlength
    refine ⟨l + word.length + run.length, ?_, by omega, by omega, ?_⟩
    · rw [if_neg (by simp [hne])]
      simp
    · intro c hc
      have htake : t.take (l + word.length + run.length) = (t.take l ++ word) ++ run := by
        refine Text.take_of_eq_append (v := rest ++ t.drop r) (by simpa using hsplit) ?_
        simp only [List.length_append, hfront]
      rw [htake, List.getLast?_append_of_ne_nil _ hne] at hc
      exact hblank c (List.mem_of_getLast? hc)

/-- The last run of blanks between two offsets starts with a blank; where there is none, no
character between them is blank. -/
theorem lastBlankStart?_cases (hlr : l ≤ r) (hr : r ≤ t.length) :
    (lastBlankStart? t l r = none ∧ ∀ c ∈ Text.slice t l r, Text.isBlank c = false) ∨
      ∃ n : Nat, lastBlankStart? t l r = some n ∧ l ≤ n ∧ n ≤ r ∧
        ∀ c ∈ (t.drop n).head?, Text.isBlank c = true := by
  have hlength := Text.length_slice (a := l) hr
  have hsplit := Text.eq_take_append_slice (t := t) hlr
  have hfront : (t.take l).length = l := List.length_take_of_le (Nat.le_trans hlr hr)
  unfold lastBlankStart?
  simp only [clamp_natCast hr, clamp_natCast (Nat.le_trans hlr hr)]
  rcases Text.firstRun_cases (Text.slice t l r).reverse with
    ⟨hnil, hnone⟩ | ⟨run, rest, hregion, hrest, hrun, hne, hblank⟩
  · rw [hnil]
    exact .inl ⟨rfl, fun c hc => hnone c (List.mem_reverse.2 hc)⟩
  · right
    rw [hrest, hrun]
    generalize (Text.slice t l r).reverse.takeWhile (!Text.isBlank ·) = word at hregion ⊢
    have hregion' : Text.slice t l r = rest.reverse ++ (run.reverse ++ word.reverse) := by
      rw [← List.reverse_reverse (Text.slice t l r), hregion]
      simp
    rw [hregion'] at hlength hsplit
    simp only [List.length_append, List.length_reverse] at hlength
    refine ⟨l + rest.length, ?_, by omega, by omega, ?_⟩
    · rw [if_neg (by simp [hne])]
      simp only [List.length_append]
      congr 1
      omega
    · intro c hc
      have hdrop : t.drop (l + rest.length) = run.reverse ++ (word.reverse ++ t.drop r) := by
        refine Text.drop_of_eq_append (u := t.take l ++ rest.reverse) (by simpa using hsplit) ?_
        simp only [List.length_append, List.length_reverse, hfront]
      have hrev : run.reverse ≠ [] := by simp [hne]
      rw [hdrop, List.head?_append_of_ne_nil _ hrev] at hc
      exact hblank c (List.mem_reverse.1 (List.mem_of_mem_head? hc))

/-! ## The window -/

/-- Whether the offsets `l` and `r` are the ends of a window around the hit from `s` to `e`. -/
structure Frames (t : Text) (s e limit l r : Nat) : Prop where
  le : l ≤ r
  within : r ≤ t.length
  size_le : r ≤ l + limit
  /-- Not the whole text is in the window. -/
  proper : 0 < l ∨ r < t.length
  covers : e ≤ s + limit → l ≤ s ∧ e ≤ r
  /-- The window starts behind a blank, or no blank lies between its start and the hit. -/
  front : (∀ c ∈ (t.take l).getLast?, Text.isBlank c = true) ∨
    ∀ c ∈ Text.slice t l s, Text.isBlank c = false
  /-- The window ends in front of a blank, or no blank lies between the hit and its end. -/
  back : (∀ c ∈ (t.drop r).head?, Text.isBlank c = true) ∨
    ∀ c ∈ Text.slice t e r, Text.isBlank c = false

/-- The start of the window moves behind the first blanks in front of the hit. -/
theorem exists_narrowed_start (hls : l ≤ s) (hs : s ≤ t.length) :
    ∃ n : Nat, (if 0 < (l : Int) then (firstBlankEnd? t l s).getD l else l) = (n : Int) ∧
      l ≤ n ∧ n ≤ s ∧
      ((∀ c ∈ (t.take n).getLast?, Text.isBlank c = true) ∨
        ∀ c ∈ Text.slice t n s, Text.isBlank c = false) := by
  by_cases hl : 0 < l
  · rw [if_pos (Int.natCast_pos.2 hl)]
    rcases firstBlankEnd?_cases hls hs with ⟨hnone, hblank⟩ | ⟨n, hsome, hln, hns, hblank⟩
    · rw [hnone]
      exact ⟨l, rfl, Nat.le_refl l, hls, .inr hblank⟩
    · rw [hsome]
      exact ⟨n, rfl, hln, hns, .inl hblank⟩
  · obtain rfl : l = 0 := by omega
    exact ⟨0, rfl, Nat.le_refl 0, hls, .inl (by simp)⟩

/-- The end of the window moves in front of the last blanks behind the hit. -/
theorem exists_narrowed_stop (her : e ≤ r) (hr : r ≤ t.length) :
    ∃ n : Nat, (if (r : Int) < t.length then (lastBlankStart? t e r).getD r else r) = (n : Int) ∧
      e ≤ n ∧ n ≤ r ∧
      ((∀ c ∈ (t.drop n).head?, Text.isBlank c = true) ∨
        ∀ c ∈ Text.slice t e n, Text.isBlank c = false) := by
  by_cases hlt : r < t.length
  · rw [if_pos (Int.ofNat_lt.2 hlt)]
    rcases lastBlankStart?_cases her hr with ⟨hnone, hblank⟩ | ⟨n, hsome, hen, hnr, hblank⟩
    · rw [hnone]
      exact ⟨r, rfl, her, Nat.le_refl r, .inr hblank⟩
    · rw [hsome]
      exact ⟨n, rfl, hen, hnr, .inl hblank⟩
  · obtain rfl : r = t.length := by omega
    rw [if_neg (by omega)]
    exact ⟨t.length, rfl, her, Nat.le_refl _, .inl (by simp)⟩

/-- Before it is narrowed, the window is as long as the limit and reaches across the hit. -/
theorem exists_centred (hse : s ≤ e) (he : e ≤ t.length) (hlimit : limit < t.length)
    (hsize : e < s + limit) :
    ∃ l r : Nat,
      min (t.length : Int) (max 0 ((s : Int) - ((limit : Int) - (e - s)) / 2) + limit) = r ∧
        max 0 ((r : Int) - limit) = l ∧ r = l + limit ∧ l ≤ s ∧ e ≤ r ∧ r ≤ t.length := by
  have hcentre : 0 ≤ min (t.length : Int)
      (max 0 ((s : Int) - ((limit : Int) - (e - s)) / 2) + limit) := by
    omega
  refine ⟨_, _, (Int.natAbs_of_nonneg hcentre).symm,
    (Int.natAbs_of_nonneg (Int.le_max_left ..)).symm, ?_, ?_, ?_, ?_⟩
  all_goals omega

theorem window_frames (hse : s ≤ e) (he : e ≤ t.length) (hlimit : limit < t.length) :
    ∃ l r : Nat, window t s e limit = ((l : Int), (r : Int)) ∧ Frames t s e limit l r := by
  unfold window
  by_cases hsize : s + limit ≤ e
  · -- a hit that is as long as the limit is cut from its start
    simp only
    rw [if_pos (by omega)]
    refine ⟨s, s + limit, by simp, by omega, by omega, Nat.le_refl _, by omega, by omega, ?_, ?_⟩
    · exact .inr (by simp [Text.slice])
    · refine .inr ?_
      have hnil : Text.slice t e (s + limit) = [] := by
        rw [Text.slice, List.drop_eq_nil_iff, List.length_take]
        omega
      rw [hnil]
      exact nofun
  · obtain ⟨l, r, hcentre, hleft, hr, hls, her, hrt⟩ :=
      exists_centred hse he hlimit (Nat.lt_of_not_le hsize)
    obtain ⟨l', hl', hll', hls', hfront⟩ := exists_narrowed_start hls (Nat.le_trans hse he)
    obtain ⟨r', hr', her', hrr', hback⟩ := exists_narrowed_stop her hrt
    simp only
    rw [if_neg (by omega), hcentre, hleft, hl', hr']
    exact ⟨l', r', rfl, by omega, by omega, by omega, by omega, fun _ => ⟨hls', her'⟩, hfront,
      hback⟩

/-! ## The excerpt -/

theorem build_of_frames (hse : s ≤ e) (he : e ≤ t.length) (hlimit : limit < t.length) :
    ∃ l r : Nat, window t s e limit = ((l : Int), (r : Int)) ∧ Frames t s e limit l r ∧
      build t s e limit = (if 0 < l then ellipsis else []) ++ Text.trim (Text.slice t l r) ++
        (if r < t.length then ellipsis else []) := by
  obtain ⟨l, r, hwindow, hframes⟩ := window_frames hse he hlimit
  refine ⟨l, r, hwindow, hframes, ?_⟩
  have hwithin := hframes.within
  unfold build
  rw [if_neg (by omega), hwindow]
  simp only [Text.between_natCast (Nat.le_trans hframes.le hwithin) hwithin, Int.natCast_pos,
    Int.ofNat_lt]

/-- Whether an excerpt shows `shown` between the marks `front` and `back` and leaves out what
stands before and after it. -/
structure Cuts (t : Text) (s e limit : Nat) (before shown after front back : Text) : Prop where
  parts : t = before ++ (shown ++ after)
  length_le : shown.length ≤ limit
  /-- No white space begins what is shown. -/
  trimmed_front : ∀ c ∈ shown.head?, Text.isBlank c = false
  /-- No white space ends what is shown. -/
  trimmed_back : ∀ c ∈ shown.getLast?, Text.isBlank c = false
  /-- Dots in front stand for something, and without them only white space is left out. -/
  mark_front : front = ellipsis ∧ before ≠ [] ∨ front = [] ∧ ∀ c ∈ before, Text.isBlank c = true
  /-- Dots at the end stand for something, and without them only white space is left out. -/
  mark_back : back = ellipsis ∧ after ≠ [] ∨ back = [] ∧ ∀ c ∈ after, Text.isBlank c = true
  /-- What is cut is marked. -/
  marked : front = ellipsis ∨ back = ellipsis
  /-- Where the first word is cut, there is no blank between the cut and the hit. -/
  word_front : ∀ c ∈ before.getLast?, ∀ d ∈ (shown ++ after).head?, Text.isBlank c = false →
    Text.isBlank d = false → ∀ x ∈ Text.slice t before.length s, Text.isBlank x = false
  /-- Where the last word is cut, there is no blank between the hit and the cut. -/
  word_back : ∀ c ∈ (before ++ shown).getLast?, ∀ d ∈ after.head?, Text.isBlank c = false →
    Text.isBlank d = false → ∀ x ∈ Text.slice t e (before ++ shown).length, Text.isBlank x = false

/-- What is shown of a window is what trimming leaves of it. -/
theorem Frames.cuts (h : Frames t s e limit l r) :
    ∃ before after, l ≤ before.length ∧
      (before ++ Text.trim (Text.slice t l r)).length ≤ r ∧
      Cuts t s e limit before (Text.trim (Text.slice t l r)) after
        (if 0 < l then ellipsis else []) (if r < t.length then ellipsis else []) := by
  have hwithin := h.within
  have hle := h.le
  have hfront : (t.take l).length = l := List.length_take_of_le (Nat.le_trans hle hwithin)
  have hlength := Text.length_slice (a := l) hwithin
  have hsplit := Text.eq_take_append_slice (t := t) hle
  obtain ⟨x, y, hxy, hx, hy⟩ := Text.exists_eq_append_trim (Text.slice t l r)
  have htrimmed := Text.head?_trim (Text.slice t l r)
  have htrimmed' := Text.getLast?_trim (Text.slice t l r)
  generalize Text.trim (Text.slice t l r) = shown at hxy htrimmed htrimmed' ⊢
  rw [hxy] at hsplit hlength
  simp only [List.length_append] at hlength
  have hsize := h.size_le
  refine ⟨t.take l ++ x, y ++ t.drop r, ?_, ?_, ?_, by omega, htrimmed, htrimmed', ?_, ?_, ?_, ?_,
    ?_⟩
  · rw [List.length_append, hfront]
    exact Nat.le_add_right l x.length
  · simp only [List.length_append, hfront]
    omega
  · simpa using hsplit
  · by_cases hl : 0 < l
    · rw [if_pos hl]
      refine .inl ⟨rfl, ?_⟩
      intro hnil
      have hzero := congrArg List.length hnil
      rw [List.length_append, hfront, List.length_nil] at hzero
      omega
    · obtain rfl : l = 0 := by omega
      exact .inr ⟨rfl, by simpa using hx⟩
  · by_cases hr : r < t.length
    · rw [if_pos hr]
      refine .inl ⟨rfl, ?_⟩
      intro hnil
      have hzero := congrArg List.length hnil
      rw [List.length_append, List.length_drop, List.length_nil] at hzero
      omega
    · rw [if_neg hr, List.drop_eq_nil_of_le (by omega), List.append_nil]
      exact .inr ⟨rfl, hy⟩
  · rcases h.proper with hl | hr
    · exact .inl (if_pos hl)
    · exact .inr (if_pos hr)
  · -- a word is cut only at the end of the window, not where white space was trimmed
    intro c hc d hd hcword hdword
    have hnil : x = [] := by
      by_contra hne
      rw [List.getLast?_append_of_ne_nil _ hne] at hc
      rw [hx c (List.mem_of_getLast? hc)] at hcword
      exact absurd hcword (by simp)
    rw [hnil, List.append_nil] at hc ⊢
    rw [hfront]
    rcases h.front with hblank | hwhole
    · rw [hblank c hc] at hcword
      exact absurd hcword (by simp)
    · exact hwhole
  · intro c hc d hd hcword hdword
    have hnil : y = [] := by
      by_contra hne
      rw [List.head?_append_of_ne_nil _ hne] at hd
      rw [hy d (List.mem_of_mem_head? hd)] at hdword
      exact absurd hdword (by simp)
    rw [hnil, List.nil_append] at hd
    rw [hnil, List.length_nil] at hlength
    have hstop : (t.take l ++ x ++ shown).length = r := by
      simp only [List.length_append, hfront]
      omega
    rw [hstop]
    rcases h.back with hblank | hwhole
    · rw [hblank d hd] at hdword
      exact absurd hdword (by simp)
    · exact hwhole

/-- A text that is no longer than the limit is its own excerpt. Of a longer one, at most so many
characters are shown, with no white space at their ends and with dots where something else than
white space is left out on that side; and a word is cut only where no blank lies between the cut and
the hit. -/
theorem build_cuts (t : Text) (s e limit : Nat) (hse : s ≤ e) (he : e ≤ t.length) :
    (t.length ≤ limit → build t s e limit = t) ∧
      (limit < t.length → ∃ before shown after front back,
        build t s e limit = front ++ shown ++ back ∧
          Cuts t s e limit before shown after front back) := by
  constructor
  · intro hle
    rw [build, if_pos (by omega)]
  · intro hlimit
    obtain ⟨l, r, -, hframes, hbuild⟩ := build_of_frames hse he hlimit
    obtain ⟨before, after, -, -, hcuts⟩ := hframes.cuts
    exact ⟨before, _, after, _, _, hbuild, hcuts⟩

/-- The window ends within a word on both sides of the hit, and neither word is shown. -/
theorem build_cuts_between_words :
    let t := "lorem ipsum dolor sit amet".toList
    build t 12 17 16 = "...dolor sit...".toList ∧
      ∃ before shown after front back, build t 12 17 16 = front ++ shown ++ back ∧
        Cuts t 12 17 16 before shown after front back := by
  intro t
  refine ⟨by decide +kernel, ?_⟩
  exact (build_cuts t 12 17 16 (by decide) (by decide)).2 (by decide)

/-! ## The hit -/

/-- Whether something that is not blank keeps the hit from `s` to `e` away from the ends of its
window. -/
def Keeps (t : Text) (s e limit : Nat) : Prop :=
  t.length ≤ limit ∨
    Text.allBlank (Text.between t (window t s e limit).1 ↑(s + 1)) = false ∧
      Text.allBlank (Text.between t ↑(e - 1) (window t s e limit).2) = false

theorem slice_isInfix (t : Text) {a b : Nat} (h : a ≤ b) : Text.slice t a b <:+: t := by
  have hsplit := Text.eq_take_append_slice (t := t) h
  exact ⟨t.take a, t.drop b, by rw [List.append_assoc, ← hsplit]⟩

/-- The parts of a window around the hit. -/
theorem slice_eq_of_covers (hls : l ≤ s) (hse : s ≤ e) (her : e ≤ r) :
    Text.slice t l r = Text.slice t l s ++ (Text.slice t s e ++ Text.slice t e r) := by
  rw [Text.slice_append_slice hse her, Text.slice_append_slice hls (Nat.le_trans hse her)]

/-- A hit that is kept away from the ends of its window is shown. -/
theorem Keeps.isInfix (h : Keeps t s e limit) (hse : s < e) (he : e ≤ t.length)
    (hfit : e - s ≤ limit) : Text.slice t s e <:+: build t s e limit := by
  by_cases hlimit : limit < t.length
  · obtain ⟨l, r, hwindow, hframes, hbuild⟩ := build_of_frames (Nat.le_of_lt hse) he hlimit
    obtain ⟨hls, her⟩ := hframes.covers (by omega)
    have hwithin := hframes.within
    rcases h with hle | ⟨hfront, hback⟩
    · omega
    · rw [hwindow, Text.between_natCast (by omega) (by omega)] at hfront hback
      have hsplit := slice_eq_of_covers (t := t) hls (Nat.le_of_lt hse) her
      have hpre : Text.slice t l (s + 1) <+: Text.slice t l r :=
        ⟨_, Text.slice_append_slice (by omega) (by omega)⟩
      have hsuf : Text.slice t (e - 1) r <:+ Text.slice t l r :=
        ⟨_, Text.slice_append_slice (by omega) (by omega)⟩
      have hshown : Text.slice t s e <:+: Text.trim (Text.slice t l r) := by
        refine Text.infix_trim hsplit hpre ?_ hfront hsuf ?_ hback
        · rw [Text.length_slice (by omega), Text.length_slice (by omega)]
          omega
        · rw [Text.length_slice (by omega), Text.length_slice (by omega)]
          omega
      rw [hbuild]
      exact hshown.trans (List.infix_append ..)
  · rw [build, if_pos (by omega)]
    exact slice_isInfix t (Nat.le_of_lt hse)

/-- What trimming leaves of a hit that fits is shown. -/
theorem trim_slice_isInfix (hse : s ≤ e) (he : e ≤ t.length) (hfit : e - s ≤ limit) :
    Text.trim (Text.slice t s e) <:+: build t s e limit := by
  by_cases hlimit : limit < t.length
  · obtain ⟨l, r, -, hframes, hbuild⟩ := build_of_frames hse he hlimit
    obtain ⟨hls, her⟩ := hframes.covers (by omega)
    rw [hbuild, slice_eq_of_covers hls hse her]
    exact (Text.trim_infix_trim ..).trans (List.infix_append ..)
  · rw [build, if_pos (by omega)]
    exact (Text.trim_isInfix _).trans (slice_isInfix t hse)

/-- Of a hit that its window does not keep, the first or the last character is not shown. -/
theorem exists_cuts_of_not_keeps (h : ¬ Keeps t s e limit) (hse : s < e) (he : e ≤ t.length)
    (hfit : e - s ≤ limit) :
    ∃ before shown after front back, build t s e limit = front ++ shown ++ back ∧
      Cuts t s e limit before shown after front back ∧
        (s < before.length ∨ (before ++ shown).length < e) := by
  have hlimit : limit < t.length := Nat.lt_of_not_le fun hle => h (.inl hle)
  obtain ⟨l, r, hwindow, hframes, hbuild⟩ := build_of_frames (Nat.le_of_lt hse) he hlimit
  obtain ⟨hls, her⟩ := hframes.covers (by omega)
  have hwithin := hframes.within
  obtain ⟨before, after, hl, hr, hcuts⟩ := hframes.cuts
  refine ⟨before, _, after, _, _, hbuild, hcuts, ?_⟩
  by_contra hin
  refine h (.inr ?_)
  rw [hwindow, Text.between_natCast (by omega) (by omega),
    Text.between_natCast (by omega) (by omega)]
  have hne : Text.trim (Text.slice t l r) ≠ [] := by
    intro hnil
    rw [hnil, List.append_nil] at hin
    omega
  have hparts := hcuts.parts
  have hfirst := hcuts.trimmed_front _ (List.head?_eq_some_head hne)
  have hlast := hcuts.trimmed_back _ (List.getLast?_eq_some_getLast hne)
  have hconcat := List.dropLast_concat_getLast hne
  constructor
  · refine Text.allBlank_eq_false_of_mem (Text.mem_slice_of_eq_append (u := before)
      (v := (Text.trim (Text.slice t l r)).tail ++ after) ?_ hl (by omega)) hfirst
    rw [← List.cons_append, List.cons_head_tail]
    exact hparts
  · rw [← hconcat, ← List.append_assoc, List.length_append, List.length_singleton] at hr hin
    refine Text.allBlank_eq_false_of_mem (Text.mem_slice_of_eq_append
      (u := before ++ (Text.trim (Text.slice t l r)).dropLast) (v := after) ?_ (by omega)
      (by omega)) hlast
    rw [← List.singleton_append, List.append_assoc, ← List.append_assoc _ _ after, hconcat]
    exact hparts

/-- An excerpt shows every hit that fits, as far as trimming leaves it. It shows the hit whole if
something that is not blank, of the hit or of the text around it, keeps the hit away from the ends
of the window; if nothing does, it leaves out the first or the last character of the hit. -/
theorem build_shows (t : Text) (s e limit : Nat) (hse : s < e) (he : e ≤ t.length)
    (hfit : e - s ≤ limit) :
    Text.trim (Text.slice t s e) <:+: build t s e limit ∧
      (Keeps t s e limit → Text.slice t s e <:+: build t s e limit) ∧
      (¬ Keeps t s e limit → ∃ before shown after front back,
        build t s e limit = front ++ shown ++ back ∧
          Cuts t s e limit before shown after front back ∧
          (s < before.length ∨ (before ++ shown).length < e)) := by
  refine ⟨trim_slice_isInfix (Nat.le_of_lt hse) he hfit, ?_, ?_⟩
  · intro h
    exact h.isInfix hse he hfit
  · intro h
    exact exists_cuts_of_not_keeps h hse he hfit

/-- A phrase with a blank at either end, inside the window. -/
theorem build_shows_phrase :
    let t := "lorem ipsum dolor sit amet".toList
    11 < 18 ∧ Keeps t 11 18 20 ∧ Text.slice t 11 18 = " dolor ".toList ∧
      Text.slice t 11 18 <:+: build t 11 18 20 := by
  intro t
  have hkeeps : Keeps t 11 18 20 := .inr (by decide +kernel)
  refine ⟨by decide, hkeeps, by decide, ?_⟩
  exact (build_shows t 11 18 20 (by decide) (by decide) (by decide)).2.1 hkeeps

/-- The hit begins with the blank that begins the text, and the excerpt does not show it. -/
theorem build_drops_blank :
    let t := " to do list".toList
    0 < 3 ∧ 3 ≤ t.length ∧ 3 - 0 ≤ 8 ∧ build t 0 3 8 = "to do...".toList ∧
      ¬ Text.slice t 0 3 <:+: build t 0 3 8 := by
  decide +kernel

end Excerpt

end NoteQuery

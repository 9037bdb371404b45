import NoteQuery.Query.Lexer

/-!
# What a bare word stands for

A word that begins with a name, that is with ASCII letters, and a colon is a field marker with the
rest of the word as its value (`Token.splitField?_eq_some_iff`). A word that spells a keyword in any
case is that keyword (`Token.keyword?_eq_some_iff`), and every other word stands for itself.
`Token.ofWord_cases` puts the three together, and `Token.ofWord_eq_error_iff` says when a word
stands for nothing: it is a marker alone, and no phrase follows.
-/

set_option autoImplicit false

namespace NoteQuery

namespace Text

/-- Whether a text is one or more ASCII letters. -/
def IsName (u : Text) : Prop :=
  u ≠ [] ∧ ∀ c ∈ u, isLetter c = true

theorem takeWhile_name {u rest : Text} {c : Char} (hu : IsName u) (hc : isLetter c = false) :
    (u ++ c :: rest).takeWhile isLetter = u := by
  rw [List.takeWhile_append_of_pos hu.2]
  simp [hc]

theorem dropWhile_name {u rest : Text} {c : Char} (hu : IsName u) (hc : isLetter c = false) :
    (u ++ c :: rest).dropWhile isLetter = c :: rest := by
  rw [List.dropWhile_append_of_pos hu.2]
  simp [hc]

theorem isWord_of_isLetter {c : Char} (h : isLetter c = true) : isWord c = true := by
  have hcode : 65 ≤ c.toNat ∧ c.toNat ≤ 122 := by
    simp only [isLetter, Bool.or_eq_true, Bool.and_eq_true, decide_eq_true_eq] at h
    rcases h with ⟨hlow, hhigh⟩ | ⟨hlow, hhigh⟩
    · have hlow : 97 ≤ c.toNat := hlow
      have hhigh : c.toNat ≤ 122 := hhigh
      omega
    · have hlow : 65 ≤ c.toNat := hlow
      have hhigh : c.toNat ≤ 90 := hhigh
      omega
  have hblank : isBlank c = false := by
    simp only [isBlank, Bool.or_eq_false_iff, Bool.and_eq_false_iff, decide_eq_false_iff_not,
      beq_eq_false_iff_ne]
    omega
  have hcontrol : isControl c = false := by
    simp only [isControl, Bool.or_eq_false_iff, Bool.and_eq_false_iff, decide_eq_false_iff_not]
    omega
  have hdelimiter : isDelimiter c = false := by
    have hne : ∀ d : Char, d.toNat < 65 → (c == d) = false := by
      rintro d hd
      refine beq_eq_false_iff_ne.2 ?_
      rintro rfl
      omega
    simp only [isDelimiter, isParen, hne '(' (by decide), hne ')' (by decide),
      hne '"' (by decide), Bool.or_self]
  simp only [isWord, isStray, hblank, hcontrol, hdelimiter, Bool.not_false, Bool.and_false,
    Bool.and_true]

theorem IsName.isWord {u : Text} (hu : IsName u) : ∀ c ∈ u, Text.isWord c = true :=
  fun c hc => isWord_of_isLetter (hu.2 c hc)

end Text

namespace Token

/-- A word names a field exactly if it begins with letters and a colon. -/
theorem splitField?_eq_some_iff {w name value : Text} :
    splitField? w = some (name, value) ↔
      ∃ letters, Text.IsName letters ∧ w = letters ++ ':' :: value ∧
        name = letters.map Char.toLower := by
  constructor
  · intro h
    unfold splitField? at h
    simp only at h
    split at h
    · rename_i v hdrop
      split at h
      · simp at h
      · rename_i hname
        obtain ⟨hlower, hvalue⟩ := Prod.mk.inj (Option.some.inj h)
        have hsplit : w.takeWhile Text.isLetter ++ w.dropWhile Text.isLetter = w :=
          List.takeWhile_append_dropWhile
        refine ⟨w.takeWhile Text.isLetter, ⟨?_, ?_⟩, ?_, hlower.symm⟩
        · intro hnil
          exact hname (List.isEmpty_iff.2 hnil)
        · exact List.all_eq_true.1 List.all_takeWhile
        · rw [← hvalue, ← hdrop, hsplit]
    · simp at h
  · rintro ⟨letters, hletters, rfl, rfl⟩
    have hne : letters.isEmpty = false := by
      simpa using hletters.1
    unfold splitField?
    simp only [Text.takeWhile_name hletters (show Text.isLetter ':' = false by decide),
      Text.dropWhile_name hletters (show Text.isLetter ':' = false by decide), hne,
      Bool.false_eq_true, if_false]

theorem splitField?_eq_none_iff {w : Text} :
    splitField? w = none ↔ ∀ letters rest, Text.IsName letters → w ≠ letters ++ ':' :: rest := by
  constructor
  · intro h letters rest hletters hw
    have hsome := splitField?_eq_some_iff.2 ⟨letters, hletters, hw, rfl⟩
    rw [h] at hsome
    exact absurd hsome (by simp)
  · intro h
    cases hfield : splitField? w with
    | none => rfl
    | some parts =>
      obtain ⟨letters, hletters, hw, -⟩ := splitField?_eq_some_iff.1 hfield
      exact absurd hw (h letters parts.2 hletters)

def Kind.IsKeyword (k : Kind) : Prop :=
  k = .and ∨ k = .or ∨ k = .not

theorem keyword?_eq_some_iff {w : Text} {k : Kind} :
    keyword? w = some k ↔ k.IsKeyword ∧ Text.upper w = k.name.toList := by
  unfold keyword?
  simp only
  constructor
  · intro h
    split at h
    · rename_i hand
      obtain rfl := Option.some.inj h
      exact ⟨.inl rfl, hand⟩
    · split at h
      · rename_i hor
        obtain rfl := Option.some.inj h
        exact ⟨.inr (.inl rfl), hor⟩
      · split at h
        · rename_i hnot
          obtain rfl := Option.some.inj h
          exact ⟨.inr (.inr rfl), hnot⟩
        · simp at h
  · rintro ⟨rfl | rfl | rfl, hupper⟩
    · rw [hupper]
      rfl
    · rw [hupper]
      rfl
    · rw [hupper]
      rfl

theorem keyword?_eq_some_iff_of_isKeyword {w : Text} {k : Kind} (hk : k.IsKeyword) :
    keyword? w = some k ↔ Text.upper w = k.name.toList := by
  rw [keyword?_eq_some_iff]
  exact and_iff_right hk

theorem isKeyword_or_term {w : Text} {k : Kind}
    (h : keyword? w = some k ∨ keyword? w = none ∧ k = .term) : k.IsKeyword ∨ k = .term :=
  h.imp (fun hkey => (keyword?_eq_some_iff.1 hkey).1) And.right

/-- What a word can stand for: a marker with its value, a marker alone where a phrase follows, or
one token with the word as its value. -/
theorem ofWord_cases {n : Nat} {w rest : Text} {ts : List Token} (h : ofWord n w rest = .ok ts) :
    (∃ letters value, Text.IsName letters ∧ value ≠ [] ∧ w = letters ++ ':' :: value ∧
        ts = [⟨.field, letters.map Char.toLower, n⟩, ⟨.term, value, n + letters.length + 1⟩]) ∨
      (∃ letters, Text.IsName letters ∧ rest.head? = some '"' ∧ w = letters ++ [':'] ∧
        ts = [⟨.field, letters.map Char.toLower, n⟩]) ∨
      splitField? w = none ∧ ∃ k, (keyword? w = some k ∨ keyword? w = none ∧ k = .term) ∧
        ts = [⟨k, w, n⟩] := by
  unfold ofWord at h
  cases hfield : splitField? w with
  | some parts =>
    obtain ⟨name, value⟩ := parts
    obtain ⟨letters, hletters, hw, rfl⟩ := splitField?_eq_some_iff.1 hfield
    simp only [hfield, List.length_map] at h
    cases value with
    | nil =>
      simp only [List.isEmpty_nil, Bool.not_true, Bool.false_eq_true, if_false] at h
      split at h
      · rename_i hquote
        exact .inr (.inl ⟨letters, hletters, hquote, hw, (Except.ok.inj h).symm⟩)
      · simp at h
    | cons c cs =>
      simp only [List.isEmpty_cons, Bool.not_false, if_true] at h
      exact .inl ⟨letters, c :: cs, hletters, by simp, hw, (Except.ok.inj h).symm⟩
  | none =>
    refine .inr (.inr ⟨rfl, ?_⟩)
    simp only [hfield] at h
    cases hkey : keyword? w with
    | some k =>
      simp only [hkey] at h
      exact ⟨k, .inl rfl, (Except.ok.inj h).symm⟩
    | none =>
      simp only [hkey] at h
      exact ⟨.term, .inr ⟨rfl, rfl⟩, (Except.ok.inj h).symm⟩

/-- A word stands for nothing exactly if it is a marker without a value and no phrase follows. -/
theorem ofWord_eq_error_iff {n : Nat} {w rest : Text} {e : LexError} :
    ofWord n w rest = .error e ↔
      (∃ letters, Text.IsName letters ∧ w = letters ++ [':']) ∧ rest.head? ≠ some '"' ∧
        e = ⟨.missingValue w, n⟩ := by
  unfold ofWord
  cases hfield : splitField? w with
  | some parts =>
    obtain ⟨name, value⟩ := parts
    obtain ⟨letters, hletters, hw, rfl⟩ := splitField?_eq_some_iff.1 hfield
    simp only
    cases value with
    | nil =>
      simp only [List.isEmpty_nil, Bool.not_true, Bool.false_eq_true, if_false]
      split
      · rename_i hquote
        simp [hquote]
      · rename_i hquote
        constructor
        · intro h
          exact ⟨⟨letters, hletters, hw⟩, hquote, (Except.error.inj h).symm⟩
        · rintro ⟨-, -, rfl⟩
          rfl
    | cons c cs =>
      simp only [List.isEmpty_cons, Bool.not_false, if_true, reduceCtorEq, false_iff, not_and]
      rintro ⟨letters', hletters', hw'⟩
      have hmarker := splitField?_eq_some_iff.2 ⟨letters', hletters', hw', rfl⟩
      rw [hfield] at hmarker
      simp at hmarker
  | none =>
    have hnone := splitField?_eq_none_iff.1 hfield
    simp only
    constructor
    · intro h
      split at h <;> simp at h
    · rintro ⟨⟨letters, hletters, hw⟩, -, -⟩
      exact absurd hw (hnone letters [] hletters)

end Token

end NoteQuery

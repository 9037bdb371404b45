import NoteQuery.Proofs.Note.Vocabulary
import NoteQuery.Proofs.Query.Completion
import NoteQuery.Proofs.Query.Printing

/-!
# Completing tags

Behind a tag marker in any case the tags are proposed that go on from the value
(`Completion.proposals_of_tag`), each written so that the scanner takes it for one value. The language
has no escapes, so this cannot succeed for every tag: `Completion.accepted_asks_for_tag` says for
which tags the completed query asks for the tag that was shown.
-/

set_option autoImplicit false

namespace NoteQuery

open Token (Divides)

/-! ## Names in any case -/

namespace Text

theorem isLetter_of_toLower {c : Char} (h : isLetter c.toLower = true) : isLetter c = true := by
  unfold Char.toLower at h
  split at h
  · rename_i hupper
    have hcase : 'A' ≤ c ∧ c ≤ 'Z' := hupper
    simp [isLetter, hcase]
  · exact h

theorem isName_of_map_toLower {u v : Text} (hv : IsName v) (h : u.map Char.toLower = v) :
    IsName u := by
  subst h
  refine ⟨fun hnil => hv.1 (by rw [hnil, List.map_nil]), fun c hc => ?_⟩
  exact isLetter_of_toLower (hv.2 _ (List.mem_map_of_mem hc))

end Text

namespace Completion

variable {query letters value tag : Text} {tags : List Text} {limit : Option Int}

/-! ## What is proposed -/

theorem mem_of_mem_upTo {α : Type} {x : α} {xs : List α} (h : x ∈ upTo limit xs) : x ∈ xs := by
  cases limit with
  | none => exact h
  | some n => exact List.mem_of_mem_take h

/-- A limit that is not below zero keeps as many entries, if there are. -/
theorem upTo_of_nonneg {α : Type} {n : Int} (h : 0 ≤ n) (xs : List α) :
    upTo (some n) xs = xs.take n.toNat := by
  unfold upTo Text.position
  simp only [if_neg (Int.not_lt.2 h)]
  rw [List.take_eq_take_iff]
  omega

/-- The tags that go on from a text, in the order of the vocabulary. -/
theorem tagsFor_eq (start : Text) (tags : List Text) :
    tagsFor start tags = (Vocabulary.ofTags tags).filter fun tag =>
      !tag.isEmpty && (Text.fold start).isPrefixOf (Text.fold tag) :=
  Vocabulary.ofTags_filter _ tags

theorem tagsFor_congr {others : List Text} (h : ∀ tag, tag ∈ tags ↔ tag ∈ others) (start : Text) :
    tagsFor start tags = tagsFor start others := by
  rw [tagsFor_eq, tagsFor_eq, Vocabulary.ofTags_congr h]

theorem of_mem_tagsFor (h : tag ∈ tagsFor value tags) : tag ∈ tags ∧ tag ≠ [] := by
  rw [tagsFor_eq, List.mem_filter, Vocabulary.mem_ofTags, Bool.and_eq_true] at h
  exact ⟨h.1, by simpa using h.2.1⟩

/-- Behind a tag marker the tags are proposed, each behind the marker as it was typed. -/
theorem proposals_of_tag {tokens : List Token} (heven : query.count '"' % 2 = 0)
    (hscan : Token.scan (completed query) = .ok tokens)
    (hfragment : fragment query = letters ++ ':' :: value)
    (hletters : letters.map Char.toLower = Field.tag.name) (tags : List Text) :
    proposals query tags =
      (tagsFor value tags).map fun tag => letters ++ ':' :: renderTag tag := by
  have hname := Text.isName_of_map_toLower Field.tag.isName_name hletters
  have hfield : Token.splitField? (letters ++ ':' :: value) = some (Field.tag.name, value) :=
    Token.splitField?_eq_some_iff.2 ⟨letters, hname, rfl, hletters.symm⟩
  have hmarker : (letters ++ ':' :: value).take ((letters ++ ':' :: value).length - value.length) =
      letters ++ [':'] := by
    have hlength : (letters ++ [':'] ++ value).length = (letters ++ [':']).length + value.length :=
      List.length_append
    rw [List.append_cons letters ':' value, hlength, Nat.add_sub_cancel, List.take_left]
  obtain ⟨afterOperand, hafter⟩ : ∃ b, followsOperand? (completed query) = some b := by
    rw [← Option.ne_none_iff_exists', ne_eq, followsOperand?_eq_none_iff, hscan]
    simp
  have hne : (letters ++ ':' :: value).isEmpty = false := by simp
  unfold proposals
  rw [if_neg (by omega)]
  simp only [hafter, hfragment, hne, Bool.false_eq_true, if_false, hfield, if_true, hmarker,
    List.append_assoc, List.singleton_append]

/-- What is proposed depends on which tags are known, and on nothing else about them. -/
theorem suggest_congr {others : List Text} (h : ∀ tag, tag ∈ tags ↔ tag ∈ others) (query : Text)
    (limit : Option Int) : suggest query tags limit = suggest query others limit := by
  unfold suggest proposals
  simp only [tagsFor_congr h]

/-- From a vocabulary the tags are proposed in the order that they have there. -/
theorem suggest_of_increasing {tokens : List Token} (heven : query.count '"' % 2 = 0)
    (hscan : Token.scan (completed query) = .ok tokens)
    (hfragment : fragment query = letters ++ ':' :: value)
    (hletters : letters.map Char.toLower = Field.tag.name)
    (htags : tags.Pairwise fun s t => Vocabulary.key s < Vocabulary.key t)
    (limit : Option Int) :
    suggest query tags limit = upTo limit ((tags.filter fun tag =>
      !tag.isEmpty && (Text.fold value).isPrefixOf (Text.fold tag)).map fun tag =>
        letters ++ ':' :: renderTag tag) := by
  rw [suggest, proposals_of_tag heven hscan hfragment hletters, tagsFor_eq,
    Vocabulary.ofTags_of_increasing htags]

/-- Where anything is proposed, no phrase is open and what is complete can be divided. -/
theorem exists_divides_of_mem_suggest {s : Text} (h : s ∈ suggest query tags limit) :
    query.count '"' % 2 = 0 ∧ ∃ ts, Divides 0 (completed query) ts := by
  have hlive : ¬ DeadEnd query := by
    intro hdead
    have hnone := mem_of_mem_upTo h
    rw [proposals_of_deadEnd hdead] at hnone
    exact List.not_mem_nil hnone
  rw [deadEnd_iff, not_or, followsOperand?_eq_none_iff] at hlive
  refine ⟨by omega, ?_⟩
  cases hscan : Token.scan (completed query) with
  | error e => exact absurd ⟨e, hscan⟩ hlive.2
  | ok tokens => exact Token.divides_of_scanFrom hscan

/-- What is proposed behind a tag marker are known tags. -/
theorem exists_tag_of_mem_suggest {s : Text} (hfragment : fragment query = letters ++ ':' :: value)
    (hletters : letters.map Char.toLower = Field.tag.name) (h : s ∈ suggest query tags limit) :
    ∃ tag ∈ tags, tag ≠ [] ∧ s = letters ++ ':' :: renderTag tag := by
  obtain ⟨heven, ts, hts⟩ := exists_divides_of_mem_suggest h
  have hproposals := mem_of_mem_upTo h
  rw [proposals_of_tag heven (Token.scanFrom_of_divides hts) hfragment hletters] at hproposals
  obtain ⟨tag, htag, rfl⟩ := List.mem_map.1 hproposals
  obtain ⟨hknown, hne⟩ := of_mem_tagsFor htag
  exact ⟨tag, hknown, hne, rfl⟩

/-! ## What an accepted tag reads as -/

/-- Every tag falls under one of the two ways of writing tags. -/
theorem undivided_or_divided (tag : Text) :
    (∀ c ∈ tag, Text.isBlank c = false ∧ Text.isDelimiter c = false) ∨
      ∃ c ∈ tag, Text.isBlank c = true ∨ Text.isDelimiter c = true := by
  by_cases h : ∃ c ∈ tag, Text.isBlank c = true ∨ Text.isDelimiter c = true
  · exact .inr h
  · simp only [not_exists, not_and, not_or, Bool.not_eq_true] at h
    exact .inl h

/-- A tag without a character that divides is written as it is. -/
theorem renderTag_of_forall
    (h : ∀ c ∈ tag, Text.isBlank c = false ∧ Text.isDelimiter c = false) :
    renderTag tag = tag := by
  unfold renderTag
  rw [if_neg]
  simp only [List.any_eq_true, Bool.or_eq_true, not_exists, not_and, not_or, Bool.not_eq_true]
  exact h

/-- A tag with one is written in quotes. -/
theorem renderTag_of_exists
    (h : ∃ c ∈ tag, Text.isBlank c = true ∨ Text.isDelimiter c = true) :
    renderTag tag = '"' :: (tag ++ ['"']) := by
  unfold renderTag
  rw [if_pos]
  · rfl
  · simpa only [List.any_eq_true, Bool.or_eq_true] using h

/-- No two tags are written alike. -/
theorem renderTag_injective : Function.Injective renderTag := by
  have hclean : ∀ tag : Text, (∀ c ∈ tag, Text.isBlank c = false ∧ Text.isDelimiter c = false) →
      '"' ∉ tag := by
    intro tag htag hquote
    exact absurd (htag _ hquote).2 (by decide)
  intro tag tag' h
  rcases undivided_or_divided tag with htag | htag <;>
    rcases undivided_or_divided tag' with htag' | htag'
  · rwa [renderTag_of_forall htag, renderTag_of_forall htag'] at h
  · rw [renderTag_of_forall htag, renderTag_of_exists htag'] at h
    exact absurd (h ▸ List.mem_cons_self) (hclean tag htag)
  · rw [renderTag_of_exists htag, renderTag_of_forall htag'] at h
    exact absurd (h ▸ List.mem_cons_self) (hclean tag' htag')
  · rw [renderTag_of_exists htag, renderTag_of_exists htag'] at h
    exact List.append_cancel_right (List.cons.inj h).2

/-- Whether a tag keeps its characters when it is written behind a marker: it has to stand bare or
in quotes, and what would end the phrase cannot be escaped. -/
def Enterable (tag : Text) : Prop :=
  '"' ∉ tag ∧ ((∃ c ∈ tag, Text.isBlank c = true ∨ Text.isParen c = true) ∨
    ∀ c ∈ tag, Text.isStray c = false)

/-- A tag that can be entered is the value behind the marker. -/
theorem Enterable.divides (h : Enterable tag) (hname : Text.IsName letters) (hne : tag ≠ [])
    (n : Nat) :
    ∃ k : Token.Kind, k.isValue = true ∧ Divides n (letters ++ ':' :: renderTag tag)
      [⟨.field, letters.map Char.toLower, n⟩, ⟨k, tag, n + letters.length + 1⟩] := by
  obtain ⟨hquote, hchars⟩ := h
  rcases undivided_or_divided tag with hplain | hdivided
  · have hstray : ∀ c ∈ tag, Text.isStray c = false := by
      refine hchars.resolve_left ?_
      rintro ⟨c, hc, hblank | hparen⟩
      · rw [(hplain c hc).1] at hblank
        exact absurd hblank (by simp)
      · have hdelimiter := (hplain c hc).2
        simp [Text.isDelimiter, hparen] at hdelimiter
    have hword : ∀ c ∈ tag, Text.isWord c = true :=
      fun c hc => (Text.isWord_iff c).2 ⟨(hplain c hc).1, (hplain c hc).2, hstray c hc⟩
    rw [renderTag_of_forall hplain]
    exact ⟨.term, rfl, Token.divides_valued hname hne hword n⟩
  · rw [renderTag_of_exists hdivided]
    exact ⟨.phrase, rfl, Token.divides_phrased hname hquote n⟩

/-- A tag that is read back as a value can be entered. -/
theorem enterable_of_divides {n : Nat} {ts : List Token} {t : Token}
    (hts : Divides n (letters ++ ':' :: renderTag t.value) ts) (hname : Text.IsName letters)
    (ht : t ∈ ts) (hk : t.kind.isValue = true) : Enterable t.value := by
  have hquote : '"' ∉ t.value := (hts.of_mem ht).2 hk
  refine ⟨hquote, ?_⟩
  rcases undivided_or_divided t.value with hplain | ⟨c, hc, hblank | hdelimiter⟩
  · right
    rw [renderTag_of_forall hplain] at hts
    intro c hc
    obtain ⟨a, b, hab⟩ := List.append_of_mem hc
    -- no quote stands in front of the character, so that it is outside all phrases
    refine hts.not_stray ⟨letters ++ ':' :: a, b, by simp [hab], ?_⟩
    have hcount : (letters ++ ':' :: a).count '"' = 0 := by
      rw [List.count_eq_zero, List.mem_append, List.mem_cons, not_or, not_or]
      refine ⟨fun hm => ?_, by decide, fun hm => ?_⟩
      · exact Text.ne_quote_of_word (hname.isWord _ hm) rfl
      · exact hquote (hab ▸ List.mem_append_left _ hm)
    rw [hcount]
  · exact .inl ⟨c, hc, .inl hblank⟩
  · left
    refine ⟨c, hc, .inr ?_⟩
    rcases Bool.or_eq_true_iff.1 hdelimiter with hparen | hc'
    · exact hparen
    · exact absurd (beq_iff_eq.1 hc' ▸ hc) hquote

/-! ## Accepting a proposal -/

/-- Whether a text with a proposal behind it has the tokens of that text, and behind them the marker
of tags with a tag as its value. -/
def AsksFor (tag front proposal : Text) : Prop :=
  ∃ (ts : List Token) (k : Token.Kind) (n m : Nat), k.isValue = true ∧
    Token.scan front = .ok (ts ++ [⟨.done, [], front.length⟩]) ∧
    Token.scan (front ++ proposal) = .ok (ts ++ [⟨.field, Field.tag.name, n⟩, ⟨k, tag, m⟩,
      ⟨.done, [], (front ++ proposal).length⟩])

theorem asksFor_iff {front : Text} {us : List Token} (hus : Divides 0 front us)
    (hseal : Text.SealsWord front) (hletters : letters.map Char.toLower = Field.tag.name)
    (hne : tag ≠ []) : AsksFor tag front (letters ++ ':' :: renderTag tag) ↔ Enterable tag := by
  have hname := Text.isName_of_map_toLower Field.tag.isName_name hletters
  have hfront : Token.scan front = _ := Token.scanFrom_of_divides hus
  rw [Nat.zero_add] at hfront
  constructor
  · rintro ⟨ts, k, n, m, hk, hscan, hwhole⟩
    obtain ⟨ws, hws, hends⟩ := Token.scanFrom_eq_ok_iff.1 hwhole
    obtain ⟨vs, rfl, hvs⟩ := hws.split hus (hseal.apart _)
    obtain rfl : us = ts := by
      rw [hfront] at hscan
      exact List.append_cancel_right (Except.ok.inj hscan)
    have hvs' : vs = [⟨.field, Field.tag.name, n⟩, ⟨k, tag, m⟩] := by
      rw [List.append_assoc] at hends
      have htail : [⟨.field, Field.tag.name, n⟩, ⟨k, tag, m⟩] ++ [_] = vs ++ [_] :=
        List.append_cancel_left hends
      exact (List.append_inj_left' htail rfl).symm
    exact enterable_of_divides (t := ⟨k, tag, m⟩) hvs hname (by simp [hvs']) hk
  · intro h
    obtain ⟨k, hk, hproposal⟩ := h.divides hname hne (0 + front.length)
    rw [hletters] at hproposal
    have hwhole := Token.scanFrom_of_divides (hus.append hproposal (hseal.apart _))
    simp only [List.append_assoc, Nat.zero_add] at hwhole
    exact ⟨us, k, _, _, hk, hfront, hwhole⟩

/-- What is proposed behind a tag marker in any case are known tags behind it. Accepting one asks
for the tag that was shown if and only if the tag has no quote and, unless there is white space or
a parenthesis for which it is written in quotes, no stray character. -/
theorem accepted_asks_for_tag (query letters value : Text) (tags : List Text) (limit : Option Int)
    (hfragment : fragment query = letters ++ ':' :: value)
    (hletters : letters.map Char.toLower = "tag".toList) :
    (∀ s ∈ suggest query tags limit, ∃ tag ∈ tags, s = letters ++ ':' :: renderTag tag) ∧
      ∀ tag, letters ++ ':' :: renderTag tag ∈ suggest query tags limit →
        (AsksFor tag (completed query) (letters ++ ':' :: renderTag tag) ↔
          '"' ∉ tag ∧ ((∃ c ∈ tag, Text.isBlank c = true ∨ Text.isParen c = true) ∨
            ∀ c ∈ tag, Text.isStray c = false)) := by
  refine ⟨fun s hs => ?_, fun tag htag => ?_⟩
  · obtain ⟨tag, hknown, -, hs⟩ := exists_tag_of_mem_suggest hfragment hletters hs
    exact ⟨tag, hknown, hs⟩
  · obtain ⟨-, us, hus⟩ := exists_divides_of_mem_suggest htag
    obtain ⟨tag', -, hne, hsame⟩ := exists_tag_of_mem_suggest hfragment hletters htag
    obtain rfl := renderTag_injective (List.cons.inj (List.append_cancel_left hsame)).2
    exact asksFor_iff hus (sealsWord_completed query) hletters hne

/-- Behind a phrase with a blank in it, a tag with a blank is found again and one with a quote is
not. -/
theorem accepted_asks_for_tag_in_group :
    let query : Text := "\"to do\" (TAG:s".toList
    let tags : List Text := ["work".toList, "s\"".toList, "sci fi".toList]
    (fragment query = "TAG".toList ++ ':' :: "s".toList ∧
        "TAG".toList.map Char.toLower = "tag".toList) ∧
      suggest query tags (some 10) = ["TAG:\"s\"\"".toList, "TAG:\"sci fi\"".toList] ∧
      AsksFor "sci fi".toList "\"to do\" (".toList "TAG:\"sci fi\"".toList ∧
      ¬ AsksFor "s\"".toList "\"to do\" (".toList "TAG:\"s\"\"".toList := by
  intro query tags
  have hfragment : fragment query = "TAG".toList ++ ':' :: "s".toList := by decide +kernel
  have hletters : "TAG".toList.map Char.toLower = "tag".toList := by decide
  have hcompleted : completed query = "\"to do\" (".toList := by decide +kernel
  have hsuggest : suggest query tags (some 10) =
      ["TAG:\"s\"\"".toList, "TAG:\"sci fi\"".toList] := by
    decide +kernel
  obtain ⟨-, hasks⟩ :=
    accepted_asks_for_tag query "TAG".toList "s".toList tags (some 10) hfragment hletters
  rw [hcompleted, hsuggest] at hasks
  refine ⟨⟨hfragment, hletters⟩, hsuggest, ?_, ?_⟩
  · exact (hasks "sci fi".toList (by decide +kernel)).2
      ⟨by decide, .inl ⟨' ', by decide, .inl (by decide)⟩⟩
  · intro h
    exact ((hasks "s\"".toList (by decide +kernel)).1 h).1 (by decide)

end Completion

end NoteQuery

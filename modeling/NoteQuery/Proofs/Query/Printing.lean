import NoteQuery.Proofs.Query.Derivations
import NoteQuery.Proofs.Query.Lexemes

/-!
# What the canonical text divides into

The canonical text of a tree is put together from pieces between which no word can run on, so it
divides piece by piece (`Token.Divides.append`). `Tree.divides_render` says that the tokens of a
writable tree are those that the grammar gives the tree for. For a value that cannot be read back
the text itself is no query: its stray characters stand outside quotes (`Tree.outside_render`).
-/

set_option autoImplicit false

namespace NoteQuery

open Token (Divides Lexeme)
open Grammar (Operand Conjunction Disjunction)

/-! ## Pieces of text -/

namespace Text

theorem join_cons_cons (sep p q : Text) (ps : List Text) :
    join sep (p :: q :: ps) = p ++ (sep ++ join sep (q :: ps)) := by
  simp [join, List.intercalate]

theorem join_singleton (sep p : Text) : join sep [p] = p := by
  simp [join, List.intercalate]

theorem apart_of_last {u v : Text} {c : Char} (h : isWord c = false) : Apart (u ++ [c]) v := by
  intro d hd hword
  rw [List.getLast?_concat, Option.mem_some_iff] at hd
  rw [← hd, h] at hword
  exact absurd hword (by simp)

end Text

namespace Token

theorem Divides.blank {n : Nat} {c : Char} {t : Text} {ts : List Token}
    (hc : Text.isBlank c = true) (h : Divides (n + 1) t ts) : Divides n (c :: t) ts :=
  .lexeme (.blank hc) h

theorem Lexeme.divides {n : Nat} {u : Text} {us : List Token} (h : Lexeme n [] u us) :
    Divides n u us := by
  simpa using Divides.lexeme h .done

/-- A keyword between blanks. -/
theorem divides_keyword {n : Nat} {w : Text} {k : Kind} (hne : w ≠ [])
    (hw : w.all Text.isWord = true) (hfield : splitField? w = none)
    (hk : keyword? w = some k) : Divides n (w ++ [' ']) [⟨k, w, n⟩] := by
  have hword : Lexeme n [' '] w [⟨k, w, n⟩] := by
    refine .word hne (List.all_eq_true.1 hw) (Text.endsWord_cons.2 (by decide)) ?_
    rw [ofWord, hfield]
    simp only [hk]
  exact .lexeme hword (.blank (by decide) .done)

theorem divides_and (n : Nat) :
    Divides n " AND ".toList [⟨.and, "AND".toList, n + 1⟩] :=
  .blank (by decide) (divides_keyword (w := "AND".toList) (by decide) (by decide) rfl (by decide))

theorem divides_or (n : Nat) : Divides n " OR ".toList [⟨.or, "OR".toList, n + 1⟩] :=
  .blank (by decide) (divides_keyword (w := "OR".toList) (by decide) (by decide) rfl (by decide))

theorem divides_not (n : Nat) : Divides n "NOT ".toList [⟨.not, "NOT".toList, n⟩] :=
  divides_keyword (w := "NOT".toList) (by decide) (by decide) rfl (by decide)

/-- A word without a colon names no field. -/
theorem splitField?_eq_none {w : Text} (h : ':' ∉ w) : splitField? w = none := by
  refine splitField?_eq_none_iff.2 ?_
  intro letters rest _ hw
  rw [hw] at h
  exact h (List.mem_append_right letters List.mem_cons_self)

/-- A marker in any case with the rest of its word as the value. -/
theorem divides_valued {letters v : Text} (hname : Text.IsName letters) (hne : v ≠ [])
    (hv : ∀ c ∈ v, Text.isWord c = true) (n : Nat) :
    Divides n (letters ++ ':' :: v) [⟨.field, letters.map Char.toLower, n⟩,
      ⟨.term, v, n + letters.length + 1⟩] := by
  refine Lexeme.divides (.word (by simp) ?_ Text.endsWord_nil ?_)
  · refine List.forall_mem_append.2 ⟨hname.isWord, List.forall_mem_cons.2 ⟨by decide, hv⟩⟩
  · rw [ofWord, splitField?_eq_some_iff.2 ⟨letters, hname, rfl, rfl⟩]
    simp [hne]

/-- A marker in any case with a phrase right behind it. -/
theorem divides_phrased {letters p : Text} (hname : Text.IsName letters) (hp : '"' ∉ p) (n : Nat) :
    Divides n (letters ++ ':' :: '"' :: (p ++ ['"'])) [⟨.field, letters.map Char.toLower, n⟩,
      ⟨.phrase, p, n + letters.length + 1⟩] := by
  have hmarker : Lexeme n ('"' :: (p ++ ['"'])) (letters ++ [':'])
      [⟨.field, letters.map Char.toLower, n⟩] := by
    refine .word (by simp) ?_ (Text.endsWord_cons.2 (by decide)) ?_
    · exact List.forall_mem_append.2 ⟨hname.isWord, List.forall_mem_singleton.2 (by decide)⟩
    · rw [ofWord, splitField?_eq_some_iff.2 ⟨letters, hname, rfl, rfl⟩]
      rfl
  have hphrase : Lexeme (n + (letters ++ [':']).length) [] ('"' :: (p ++ ['"']))
      [⟨.phrase, p, n + letters.length + 1⟩] := by
    rw [List.length_append]
    exact .phrase hp
  have hdivides := Divides.lexeme hmarker hphrase.divides
  rwa [List.append_assoc] at hdivides

end Token

namespace Field

theorem isName_name (f : Field) : Text.IsName f.name := by
  have hall : f.name.all Text.isLetter = true := by cases f <;> decide
  refine ⟨?_, List.all_eq_true.1 hall⟩
  cases f <;> decide

theorem map_toLower_name (f : Field) : f.name.map Char.toLower = f.name := by
  cases f <;> decide

theorem marker_append {f : Field} (hf : f ≠ .anywhere) (v : Text) :
    f.marker ++ v = f.name ++ ':' :: v := by
  cases f with
  | anywhere => exact absurd rfl hf
  | _ => rfl

theorem ofName?_name {f : Field} (hf : f ≠ .anywhere) : ofName? f.name = some f := by
  cases f with
  | anywhere => exact absurd rfl hf
  | _ => rfl

end Field

/-! ## Leaves -/

namespace Tree

/-- A value that stands bare is a word without a colon, and no keyword. -/
theorem bare_of_not_needsQuotes {v : Text} (h : needsQuotes v = false) :
    v ≠ [] ∧ ':' ∉ v ∧ (∀ c ∈ v, Text.isBlank c = false ∧ Text.isDelimiter c = false) ∧
      Token.keyword? v = none := by
  simp only [needsQuotes, Bool.or_eq_false_iff, List.isEmpty_eq_false_iff, List.any_eq_false,
    Option.isSome_eq_false_iff, Option.isNone_iff_eq_none] at h
  obtain ⟨⟨hne, hchars⟩, hkey⟩ := h
  refine ⟨hne, fun hmem => hchars _ hmem (by decide), fun c hc => ?_, hkey⟩
  have hforces := hchars c hc
  simp only [forcesQuotes, Bool.or_eq_true, not_or, Bool.not_eq_true] at hforces
  exact ⟨hforces.1.1, hforces.1.2⟩

theorem isWord_of_writable {v : Text} (hv : WritableValue v) (h : needsQuotes v = false) :
    ∀ c ∈ v, Text.isWord c = true := by
  obtain ⟨-, hcolon, hchars, -⟩ := bare_of_not_needsQuotes h
  have hstray : v.any Text.isStray = false := by
    rcases hv.2.2 with hany | hstray
    · obtain ⟨c, hc, hforces⟩ := List.any_eq_true.1 hany
      obtain ⟨hblank, hdelimiter⟩ := hchars c hc
      have hne : c ≠ ':' := by rintro rfl; exact hcolon hc
      simp_all [Text.isDelimiter]
    · exact hstray
  intro c hc
  obtain ⟨hblank, hdelimiter⟩ := hchars c hc
  have hcstray := List.any_eq_false.1 hstray c hc
  exact (Text.isWord_iff c).2 ⟨hblank, hdelimiter, by simpa using hcstray⟩

theorem divides_quoted (n : Nat) {v : Text} (h : '"' ∉ v) :
    Divides n ('"' :: (v ++ ['"'])) [⟨.phrase, v, n⟩] :=
  Lexeme.divides (.phrase h)

/-- A value on its own is a phrase or a word. -/
theorem divides_renderValue {v : Text} (hv : WritableValue v) (n : Nat) :
    ∃ k : Token.Kind, k.isValue = true ∧ Divides n (renderValue v) [⟨k, v, n⟩] := by
  cases hneeds : needsQuotes v with
  | true =>
    rw [renderValue, if_pos hneeds]
    exact ⟨.phrase, rfl, divides_quoted n hv.2.1⟩
  | false =>
    obtain ⟨hne, hcolon, -, hkey⟩ := bare_of_not_needsQuotes hneeds
    have hlexeme : Lexeme n [] v [⟨.term, v, n⟩] := by
      refine .word hne (isWord_of_writable hv hneeds) Text.endsWord_nil ?_
      rw [Token.ofWord, Token.splitField?_eq_none hcolon]
      simp only [hkey]
    rw [renderValue, if_neg (by simp [hneeds])]
    exact ⟨.term, rfl, hlexeme.divides⟩

/-- A value behind a marker is a phrase, or the rest of the marker's word. -/
theorem divides_marked {f : Field} (hf : f ≠ .anywhere) {v : Text} (hv : WritableValue v) (n : Nat) :
    ∃ (k : Token.Kind) (p : Nat), k.isValue = true ∧
      Divides n (f.marker ++ renderValue v) [⟨.field, f.name, n⟩, ⟨k, v, p⟩] := by
  rw [Field.marker_append hf, renderValue]
  cases hneeds : needsQuotes v with
  | true =>
    have hphrased := Token.divides_phrased f.isName_name hv.2.1 n
    rw [f.map_toLower_name] at hphrased
    exact ⟨.phrase, _, rfl, hphrased⟩
  | false =>
    have hvalued := Token.divides_valued f.isName_name hv.1 (isWord_of_writable hv hneeds) n
    rw [f.map_toLower_name] at hvalued
    exact ⟨.term, _, rfl, hvalued⟩

/-- A writable leaf divides into tokens that make an operand. -/
theorem divides_leaf {f : Field} {v : Text} (hv : WritableValue v) (n room : Nat) :
    ∃ ts, Divides n (f.marker ++ renderValue v) ts ∧ Operand room ts (.leaf f v) := by
  by_cases hf : f = .anywhere
  · subst hf
    obtain ⟨k, hk, hdivides⟩ := divides_renderValue hv n
    exact ⟨_, hdivides, .value hk hv.1⟩
  · obtain ⟨k, p, hk, hdivides⟩ := divides_marked hf hv n
    exact ⟨_, hdivides, .field rfl (Field.ofName?_name hf) hk hv.1⟩

/-! ## Trees -/

/-- The tokens of a tree, at the level of the grammar at which the tree is built. -/
def Phrase (room : Nat) (ts : List Token) : Tree → Prop
  | .all cs => Conjunction room ts cs
  | .any cs => Disjunction room ts cs
  | t => Operand room ts t

theorem Phrase.operand {room : Nat} {ts : List Token} {t : Tree} (h : t.Phrase room ts)
    (hop : t.IsOperand) : Operand room ts t := by
  cases t with
  | all cs => simp [IsOperand, isConjunction] at hop
  | any cs => simp [IsOperand, isDisjunction] at hop
  | _ => exact h

theorem Phrase.conjunction {room : Nat} {ts : List Token} {t : Tree} (h : t.Phrase room ts)
    (hp : t.Proper) (hop : t.isDisjunction = false) :
    ∃ factors, Conjunction room ts factors ∧ t = allOf factors := by
  cases t with
  | all cs =>
    refine ⟨cs, h, ?_⟩
    match cs, hp.1 with
    | _ :: _ :: _, _ => rfl
  | any cs => simp [isDisjunction] at hop
  | _ => exact ⟨[_], .one h, rfl⟩

theorem Phrase.disjunction {room : Nat} {ts : List Token} {t : Tree} (h : t.Phrase room ts)
    (hp : t.Proper) :
    ∃ alternatives, Disjunction room ts alternatives ∧ t = anyOf alternatives := by
  cases hdis : t.isDisjunction with
  | false =>
    obtain ⟨factors, hcon, rfl⟩ := h.conjunction hp hdis
    exact ⟨_, .one hcon, rfl⟩
  | true =>
    cases t with
    | any cs =>
      refine ⟨cs, h, ?_⟩
      match cs, hp.1 with
      | _ :: _ :: _, _ => rfl
    | _ => simp [isDisjunction] at hdis

/-- Texts with a keyword between them. `Part` relates tokens to a child, `Whole` to the children. -/
theorem divides_join {sep : Text} {keyword : Nat → Token} {Part : List Token → Tree → Prop}
    {Whole : List Token → List Tree → Prop} (hsep : ∀ n, Divides n sep [keyword n])
    (hbefore : ∀ rest, Text.EndsWord (sep ++ rest)) (hbehind : ∀ rest, Text.Apart sep rest)
    (hone : ∀ ts c, Part ts c → Whole ts [c])
    (hmore : ∀ n ts us c cs, Part ts c → Whole us cs → Whole (ts ++ keyword n :: us) (c :: cs))
    {cs : List Tree} (hne : cs ≠ []) (h : ∀ c ∈ cs, ∀ n, ∃ ts, Divides n c.render ts ∧ Part ts c)
    (n : Nat) : ∃ ts, Divides n (Text.join sep (cs.map render)) ts ∧ Whole ts cs := by
  induction cs generalizing n with
  | nil => exact absurd rfl hne
  | cons c cs ih =>
    obtain ⟨hc, hcs⟩ := List.forall_mem_cons.1 h
    obtain ⟨ts, hts, hpart⟩ := hc n
    cases cs with
    | nil =>
      rw [List.map_cons, List.map_nil, Text.join_singleton]
      exact ⟨ts, hts, hone ts c hpart⟩
    | cons d ds =>
      obtain ⟨us, hus, hwhole⟩ := ih (by simp) hcs (n + c.render.length + sep.length)
      have hrest := (hsep (n + c.render.length)).append hus (hbehind _)
      rw [List.map_cons, List.map_cons, Text.join_cons_cons]
      exact ⟨_, hts.append hrest (Text.apart_of_endsWord (hbefore _)),
        hmore _ ts us c _ hpart hwhole⟩

theorem divides_join_and {room : Nat} {cs : List Tree} (hne : cs ≠ [])
    (h : ∀ c ∈ cs, ∀ n, ∃ ts, Divides n c.render ts ∧ Operand room ts c) (n : Nat) :
    ∃ ts, Divides n (Text.join " AND ".toList (cs.map render)) ts ∧ Conjunction room ts cs := by
  refine divides_join Token.divides_and ?_ ?_ ?_ ?_ hne h n
  · exact fun rest => Text.endsWord_cons.2 (by decide)
  · exact fun rest => Text.apart_of_last (u := " AND".toList) (by decide)
  · exact fun ts c hop => .one hop
  · exact fun n ts us c cs hop hcon => .joined hop rfl hcon

theorem divides_join_or {room : Nat} {cs : List Tree} (hne : cs ≠ [])
    (h : ∀ c ∈ cs, ∀ n, ∃ ts, Divides n c.render ts ∧
      ∃ factors, Conjunction room ts factors ∧ c = allOf factors) (n : Nat) :
    ∃ ts, Divides n (Text.join " OR ".toList (cs.map render)) ts ∧ Disjunction room ts cs := by
  refine divides_join Token.divides_or ?_ ?_ ?_ ?_ hne h n
  · exact fun rest => Text.endsWord_cons.2 (by decide)
  · exact fun rest => Text.apart_of_last (u := " OR".toList) (by decide)
  · rintro ts c ⟨factors, hcon, rfl⟩
    exact .one hcon
  · rintro n ts us c cs ⟨factors, hcon, rfl⟩ hdis
    exact .joined hcon rfl hdis

/-- The text of a shaped tree with values that can be read back divides into the tokens that the
grammar gives the tree for. -/
theorem divides_render {t : Tree} {room : Nat} (h : t.Shaped room WritableValue) (n : Nat) :
    ∃ ts, Divides n t.render ts ∧ t.Phrase room ts := by
  induction t generalizing room n with
  | leaf f v => exact divides_leaf (shaped_leaf_iff.1 h) n room
  | all cs ih =>
    obtain ⟨hlength, hcs⟩ := shaped_all_iff.1 h
    have hne : cs ≠ [] := by rintro rfl; simp at hlength
    rw [render, renderList_eq_map]
    refine divides_join_and hne (fun c hc m => ?_) n
    obtain ⟨hshaped, hop⟩ := hcs c hc
    obtain ⟨ts, hts, hphrase⟩ := ih c hc hshaped m
    exact ⟨ts, hts, hphrase.operand hop⟩
  | any cs ih =>
    obtain ⟨hlength, hcs⟩ := shaped_any_iff.1 h
    have hne : cs ≠ [] := by rintro rfl; simp at hlength
    rw [render, renderList_eq_map]
    refine divides_join_or hne (fun c hc m => ?_) n
    obtain ⟨hshaped, hop⟩ := hcs c hc
    obtain ⟨ts, hts, hphrase⟩ := ih c hc hshaped m
    exact ⟨ts, hts, hphrase.conjunction hshaped.proper hop⟩
  | negation c ih =>
    obtain ⟨room, rfl, hshaped, hop⟩ := shaped_negation_iff.1 h
    obtain ⟨ts, hts, hphrase⟩ := ih hshaped (n + "NOT ".toList.length)
    have htext := (Token.divides_not n).append hts
      (Text.apart_of_last (u := "NOT".toList) (by decide))
    exact ⟨_, htext, .negation rfl (hphrase.operand hop)⟩
  | group c ih =>
    obtain ⟨room, rfl, hshaped⟩ := shaped_group_iff.1 h
    obtain ⟨ts, hts, hphrase⟩ := ih hshaped (n + 1)
    obtain ⟨alternatives, hdis, rfl⟩ := hphrase.disjunction hshaped.proper
    have hclosing : Divides (n + 1 + (anyOf alternatives).render.length) [')']
        [⟨.closing, [')'], n + 1 + (anyOf alternatives).render.length⟩] := Lexeme.closing.divides
    have hinner := hts.append hclosing
      (Text.apart_of_endsWord (Text.endsWord_cons.2 (by decide)))
    have htext : Divides n ('(' :: ((anyOf alternatives).render ++ [')'])) _ :=
      Divides.lexeme .opening hinner
    exact ⟨_, htext, .group rfl hdis rfl⟩
  | absent => exact absurd h.proper id
  | unknown kind => exact absurd h.proper id

end Tree

/-! ## Stray characters in the text of a tree -/

namespace Text

theorem upperChar_of_stray {c : Char} (h : isStray c = true) : upperChar c = [c] := by
  simp only [isStray, isControl, Bool.and_eq_true, Bool.or_eq_true, decide_eq_true_eq] at h
  unfold upperChar
  split
  · have hsmall : ¬ ('a'.val ≤ c.val ∧ c.val ≤ 'z'.val) := by
      rintro ⟨hlow, hhigh⟩
      have hlow : 97 ≤ c.toNat := UInt32.le_iff_toNat_le.1 hlow
      have hhigh : c.toNat ≤ 122 := UInt32.le_iff_toNat_le.1 hhigh
      omega
    have hupper : c.toUpper = c := dif_neg hsmall
    rw [hupper]
  · exact CaseRun.convert_of_lt (m := 0xa0) (by decide +kernel) (by decide +kernel) (by omega)

theorem count_quote_join {sep : Text} {ps : List Text} (hsep : sep.count '"' % 2 = 0)
    (hps : ∀ p ∈ ps, p.count '"' % 2 = 0) : (join sep ps).count '"' % 2 = 0 := by
  induction ps with
  | nil => simp [join, List.intercalate]
  | cons p ps ih =>
    obtain ⟨hp, hps⟩ := List.forall_mem_cons.1 hps
    cases ps with
    | nil => rwa [join_singleton]
    | cons q ps =>
      have := ih hps
      rw [join_cons_cons, List.count_append, List.count_append]
      omega

theorem outside_join {sep p : Text} {ps : List Text} {c : Char} (hsep : sep.count '"' % 2 = 0)
    (hps : ∀ p ∈ ps, p.count '"' % 2 = 0) (hp : p ∈ ps) (hc : Outside c p) :
    Outside c (join sep ps) := by
  induction ps with
  | nil => simp at hp
  | cons q ps ih =>
    obtain ⟨hq, hps⟩ := List.forall_mem_cons.1 hps
    cases ps with
    | nil =>
      rw [join_singleton]
      exact List.mem_singleton.1 hp ▸ hc
    | cons r ps =>
      rw [join_cons_cons]
      rcases List.mem_cons.1 hp with rfl | hp
      · exact hc.append_right _
      · exact ((ih hps hp).append_left hsep).append_left hq

end Text

theorem Token.not_stray_of_keyword {w : Text} {k : Token.Kind} (h : Token.keyword? w = some k) :
    w.any Text.isStray = false := by
  have hupper : (Text.upper w).any Text.isStray = false := by
    unfold Token.keyword? at h
    simp only at h
    split at h
    · rename_i hword
      rw [hword]
      decide
    · split at h
      · rename_i hword
        rw [hword]
        decide
      · split at h
        · rename_i hword
          rw [hword]
          decide
        · cases h
  rw [List.any_eq_false] at hupper ⊢
  intro c hc hstray
  have hmem : c ∈ Text.upper w :=
    List.mem_flatMap.2 ⟨c, hc, by simp [Text.upperChar_of_stray hstray]⟩
  exact hupper c hmem hstray

namespace Tree

theorem count_quote_renderValue {v : Text} (h : '"' ∉ v) : (renderValue v).count '"' % 2 = 0 := by
  have hcount : v.count '"' = 0 := List.count_eq_zero.2 h
  unfold renderValue
  split <;> simp [hcount]

theorem count_quote_render {t : Tree} (h : ∀ v ∈ t.values, '"' ∉ v) :
    t.render.count '"' % 2 = 0 := by
  induction t with
  | leaf f v =>
    have hmarker : f.marker.count '"' = 0 := by cases f <;> decide
    have hvalue := count_quote_renderValue (h v (by simp [values]))
    rw [render, List.count_append]
    omega
  | all cs ih | any cs ih =>
    rw [render, renderList_eq_map]
    refine Text.count_quote_join (by decide) fun p hp => ?_
    obtain ⟨c, hc, rfl⟩ := List.mem_map.1 hp
    exact ih c hc fun v hv => h v (mem_valuesList.2 ⟨c, hc, hv⟩)
  | negation c ih =>
    have hnot : "NOT ".toList.count '"' = 0 := by decide
    have hc := ih h
    rw [render, List.count_append]
    omega
  | group c ih =>
    have hc := ih h
    simpa [render] using hc
  | absent => rfl
  | unknown kind => rfl

theorem outside_render {t : Tree} (h : ∀ v ∈ t.values, '"' ∉ v) {v : Text} (hv : v ∈ t.values)
    (hbare : needsQuotes v = false) {c : Char} (hc : c ∈ v) : Text.Outside c t.render := by
  induction t with
  | leaf f w =>
    obtain rfl := List.mem_singleton.1 hv
    have hmarker : f.marker.count '"' % 2 = 0 := by cases f <;> decide
    obtain ⟨a, b, rfl⟩ := List.append_of_mem hc
    have hquote : '"' ∉ a := fun hm => h (a ++ c :: b) hv (List.mem_append_left _ hm)
    have hcount : a.count '"' = 0 := List.count_eq_zero.2 hquote
    rw [render, renderValue, if_neg (by simp [hbare])]
    exact Text.Outside.append_left ⟨a, b, rfl, by omega⟩ hmarker
  | all cs ih | any cs ih =>
    obtain ⟨d, hd, hv⟩ := mem_valuesList.1 hv
    have hcs : ∀ d ∈ cs, ∀ v ∈ d.values, '"' ∉ v := fun d hd v hv =>
      h v (mem_valuesList.2 ⟨d, hd, hv⟩)
    rw [render, renderList_eq_map]
    have houtside := ih d hd (hcs d hd) hv
    refine Text.outside_join (by decide) (fun p hp => ?_) (List.mem_map_of_mem hd) houtside
    obtain ⟨d, hd, rfl⟩ := List.mem_map.1 hp
    exact count_quote_render (hcs d hd)
  | negation d ih => exact (ih h hv).append_left (by decide)
  | group d ih =>
    have hinner : Text.Outside c ("(".toList ++ (d.render ++ [')'])) :=
      ((ih h hv).append_right [')']).append_left (by decide)
    exact hinner
  | absent => simp [values] at hv
  | unknown kind => simp [values] at hv

/-- Where the text of a tree can be divided, its values can be read back, if they are not empty and
hold no quotes. -/
theorem writable_of_divides {t : Tree} {n : Nat} {ts : List Token} (h : Divides n t.render ts)
    (hvalues : ∀ v ∈ t.values, v ≠ [] ∧ '"' ∉ v) : ∀ v ∈ t.values, WritableValue v := by
  intro v hv
  obtain ⟨hne, hquote⟩ := hvalues v hv
  refine ⟨hne, hquote, ?_⟩
  cases hneeds : needsQuotes v with
  | false =>
    right
    rw [List.any_eq_false]
    intro c hc
    have houtside := outside_render (fun v hv => (hvalues v hv).2) hv hneeds hc
    simp [h.not_stray houtside]
  | true =>
    simp only [needsQuotes, Bool.or_eq_true, List.isEmpty_iff, hne, false_or] at hneeds
    rcases hneeds with hforces | hkey
    · left
      obtain ⟨c, hc, hforces⟩ := List.any_eq_true.1 hforces
      refine List.any_eq_true.2 ⟨c, hc, ?_⟩
      have hcquote : c ≠ '"' := by rintro rfl; exact hquote hc
      simpa [forcesQuotes, Text.isDelimiter, hcquote] using hforces
    · right
      obtain ⟨k, hk⟩ := Option.isSome_iff_exists.1 hkey
      exact Token.not_stray_of_keyword hk

end Tree

end NoteQuery

import Mathlib.Data.List.Forall2
import NoteQuery.Proofs.Telemetry.LineMembers

/-!
# What a log line hides

The value of a secret does not reach a line, and neither does what lies beyond the limit of a long
text. So two records that differ in nothing else have the same line, or fail in the same way
(`LogLine.render_eq_of_lookAlike`): a line is made of what `display` shows of each attribute and of
the clipped message, and of nothing behind them.
-/

set_option autoImplicit false

namespace NoteQuery

/-- Whether two texts are longer than a limit and agree up to it. -/
def Text.AgreeTo (limit : Nat) (s t : Text) : Prop :=
  limit < s.length ∧ limit < t.length ∧ s.take limit = t.take limit

theorem Text.AgreeTo.clip_eq {limit : Nat} {s t : Text} (h : AgreeTo limit s t) :
    clip limit s = clip limit t := by
  obtain ⟨hs, ht, htake⟩ := h
  rw [clip, if_pos hs, clip, if_pos ht, htake]

namespace LogLine

variable {context : Context} {r r' : LogRecord} {name : Text} {v w : Datum}

/-- Whether two values of an attribute differ only in what no line may show. -/
inductive ShowAlike (name : Text) : Datum → Datum → Prop
  | same (v : Datum) : ShowAlike name v v
  /-- The name is that of a secret, in any case. -/
  | secret (v w : Datum) : Text.lower name ∈ secretNames → ShowAlike name v w
  /-- Both are texts that are clipped to the same beginning. -/
  | clipped {s t : Text} : Text.AgreeTo attributeLimit s t → ShowAlike name (.text s) (.text t)

/-- Whether two messages differ only beyond the limit. -/
inductive MessagesAlike : (m m' : Except Template.Failure Text) → Prop
  | same (m : Except Template.Failure Text) : MessagesAlike m m
  | clipped {s t : Text} : Text.AgreeTo messageLimit s t → MessagesAlike (.ok s) (.ok t)

/-- Whether two records have the same attributes in the same order, and differ only in what no line
may show. -/
structure LookAlike (r r' : LogRecord) : Prop where
  created : r.created = r'.created
  level : r.level = r'.level
  logger : r.logger = r'.logger
  failure : r.failure = r'.failure
  message : MessagesAlike r.message r'.message
  attributes : List.Forall₂ (fun a b => a.1 = b.1 ∧ ShowAlike a.1 a.2 b.2) r.attributes
    r'.attributes

theorem ShowAlike.display_eq (h : ShowAlike name v w) : display name v = display name w := by
  cases h with
  | same _ => rfl
  | secret _ _ hname =>
    have hsecret : isSecret name = true := List.contains_iff_mem.2 hname
    unfold display
    rw [if_pos hsecret, if_pos hsecret]
  | clipped hagree =>
    unfold display
    split
    · rfl
    · simp only [hagree.clip_eq]

/-- Messages that differ only beyond the limit both fail, in the same way, or are both there. -/
theorem MessagesAlike.error_or_clip_eq {m m' : Except Template.Failure Text}
    (h : MessagesAlike m m') :
    (∃ e, m = .error e ∧ m' = .error e) ∨
      ∃ s t, m = .ok s ∧ m' = .ok t ∧ Text.clip messageLimit s = Text.clip messageLimit t := by
  cases h with
  | same m =>
    cases m with
    | error e => exact .inl ⟨e, rfl, rfl⟩
    | ok s => exact .inr ⟨s, s, rfl, rfl, rfl⟩
  | @clipped s t hagree => exact .inr ⟨s, t, rfl, rfl, hagree.clip_eq⟩

/-- A line shows the same of attributes that differ only in what no line may show. -/
theorem shownAttributes_eq {as bs : List (Text × Datum)}
    (h : List.Forall₂ (fun a b => a.1 = b.1 ∧ ShowAlike a.1 a.2 b.2) as bs) :
    shownAttributes as = shownAttributes bs := by
  induction h with
  | nil => rfl
  | @cons a b as bs hab _ ih =>
    obtain ⟨hname, halike⟩ := hab
    have hshown : (a.1, display a.1 a.2) = (b.1, display b.1 b.2) := by
      rw [halike.display_eq, hname]
    unfold shownAttributes at ih ⊢
    cases hhidden : isHidden a.1 with
    | true =>
      rw [List.filter_cons_of_neg (by simp [hhidden]),
        List.filter_cons_of_neg (by simp [← hname, hhidden]), ih]
    | false =>
      rw [List.filter_cons_of_pos (by simp [hhidden]),
        List.filter_cons_of_pos (by simp [← hname, hhidden]), List.map_cons, List.map_cons, ih,
        hshown]

theorem LookAlike.core_eq (h : LookAlike r r') (time : Text) {s t : Text}
    (hclip : Text.clip messageLimit s = Text.clip messageLimit t) :
    core context r time s = core context r' time t := by
  unfold core
  rw [h.level, h.logger, h.failure, hclip]

theorem LookAlike.withAttributes_eq (h : LookAlike r r') (ms : List (Text × Datum)) :
    withAttributes r.attributes ms = withAttributes r'.attributes ms := by
  rw [LogLine.withAttributes_eq, LogLine.withAttributes_eq, shownAttributes_eq h.attributes]

theorem LookAlike.members_eq (h : LookAlike r r') : members context r = members context r' := by
  unfold members
  rw [h.created]
  obtain ⟨e, hm, hm'⟩ | ⟨s, t, hm, hm', hclip⟩ := h.message.error_or_clip_eq
  · rw [hm, hm']
    rfl
  · rw [hm, hm']
    refine congrArg (timestamp r'.created >>= ·) (funext fun time => congrArg Except.ok ?_)
    show withAttributes r.attributes (core context r time s) =
      withAttributes r'.attributes (core context r' time t)
    rw [h.withAttributes_eq, h.core_eq time hclip]

/-- Records that differ only in what no line may show have the same line, or fail in the same way. -/
theorem render_eq_of_lookAlike (h : LookAlike r r') : render context r = render context r' := by
  unfold render json
  rw [h.members_eq]

/-- A secret that has no JSON text, the end of a long attribute and the end of a long message leave
no trace in a line. -/
theorem render_eq_of_lookAlike_secret :
    let record (message query : Text) (key : Datum) : LogRecord :=
      ⟨0, "INFO".toList, "notes.web".toList, message, [], none,
        [("query".toList, .text query), ("API_Key".toList, key), ("took".toList, .int 3)]⟩
    let r := record (List.replicate 2000 'm' ++ "one".toList)
      (List.replicate 500 'q' ++ "left".toList) (.int 18446744073709551616)
    let r' := record (List.replicate 2000 'm' ++ "another".toList)
      (List.replicate 500 'q' ++ "right".toList) (.text "x".toList)
    (Datum.int 18446744073709551616).toJson = .error (.integerRange 18446744073709551616) ∧
      LookAlike r r' ∧ render [] r = render [] r' := by
  intro record r r'
  have hagree (n : Nat) (c : Char) {s t : Text} (hs : s ≠ []) (ht : t ≠ []) :
      Text.AgreeTo n (List.replicate n c ++ s) (List.replicate n c ++ t) := by
    have hs : 0 < s.length := List.length_pos_iff.2 hs
    have ht : 0 < t.length := List.length_pos_iff.2 ht
    refine ⟨?_, ?_, ?_⟩
    · simpa using hs
    · simpa using ht
    · simp
  have h : LookAlike r r' :=
    { created := rfl
      level := rfl
      logger := rfl
      failure := rfl
      message := .clipped (hagree messageLimit 'm' (by decide) (by decide))
      attributes :=
        .cons ⟨rfl, .clipped (hagree attributeLimit 'q' (by decide) (by decide))⟩
          (.cons ⟨rfl, .secret _ _ (by decide)⟩ (.cons ⟨rfl, .same _⟩ .nil)) }
  exact ⟨rfl, h, render_eq_of_lookAlike h⟩

end LogLine

end NoteQuery

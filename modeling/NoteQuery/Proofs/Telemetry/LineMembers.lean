import Mathlib.Data.List.Forall2
import NoteQuery.Proofs.Telemetry.Correlation
import NoteQuery.Telemetry.LogLine

/-!
# What the members of a log line tell

A line comes about in two steps. `LogLine.core` has the members that are those of the record and of
the context, each under a name of its own, and then every attribute that is not left out is put under
its name. So what stands under a name is the last attribute of that name, and without one what the
first step put there. Only the message is safe: no attribute of that name is put anywhere
(`LogLine.render_tells`).
-/

set_option autoImplicit false

namespace NoteQuery

/-! ## Results that are there -/

section

variable {ε α β : Type} {x : Except ε α} {a : α} {b : β}

theorem bind_eq_ok {f : α → Except ε β} :
    (x >>= f) = .ok b ↔ ∃ a, x = .ok a ∧ f a = .ok b := by
  cases x <;> simp [bind, Except.bind]

theorem map_eq_ok {f : α → β} : x.map f = .ok b ↔ ∃ a, x = .ok a ∧ f a = b := by
  cases x <;> simp [Except.map]

theorem mapError_eq_ok {ε' : Type} {f : ε → ε'} : x.mapError f = .ok a ↔ x = .ok a := by
  cases x <;> simp [Except.mapError]

end

/-! ## Records as JSON -/

namespace Datum

/-- Several members and what each of them becomes as JSON. -/
def Serializes (ms : List (Text × Datum)) (js : List (Text × Json)) : Prop :=
  List.Forall₂ (fun m j => m.1 = j.1 ∧ m.2.toJson = .ok j.2) ms js

variable {ms : List (Text × Datum)} {js : List (Text × Json)}

theorem serializes_of_serializeMembers (h : serializeMembers (arrangedMembers ms) = .ok js) :
    Serializes ms js := by
  induction ms generalizing js with
  | nil =>
    rw [arrangedMembers, serializeMembers] at h
    obtain rfl := Except.ok.inj h
    exact .nil
  | cons m ms ih =>
    obtain ⟨name, d⟩ := m
    rw [arrangedMembers, serializeMembers] at h
    obtain ⟨j, hfirst, h⟩ := bind_eq_ok.1 h
    obtain ⟨rest, hrest, h⟩ := bind_eq_ok.1 h
    obtain rfl := Except.ok.inj h
    exact .cons ⟨rfl, hfirst⟩ (ih hrest)

/-- A record becomes an object, member by member. -/
theorem exists_serializes_of_toJson {j : Json} (h : (record ms).toJson = .ok j) :
    ∃ js, j = .obj js ∧ Serializes ms js := by
  rw [toJson, arranged, serialize] at h
  obtain ⟨js, hmembers, h⟩ := bind_eq_ok.1 h
  exact ⟨js, (Except.ok.inj h).symm, serializes_of_serializeMembers hmembers⟩

theorem Serializes.names_eq (h : Serializes ms js) : js.map Prod.fst = ms.map Prod.fst := by
  induction h with
  | nil => rfl
  | cons hm _ ih => rw [List.map_cons, List.map_cons, ih, hm.1]

theorem Serializes.getMember? (h : Serializes ms js) {name : Text} {d : Datum}
    (hd : getMember? name ms = some d) :
    ∃ j, NoteQuery.getMember? name js = some j ∧ d.toJson = .ok j := by
  induction h with
  | nil => exact absurd hd (by simp [NoteQuery.getMember?])
  | @cons m j ms js hm _ ih =>
    rw [NoteQuery.getMember?] at hd ⊢
    by_cases hname : m.1 = name
    · rw [if_pos hname] at hd
      rw [if_pos (hm.1 ▸ hname)]
      obtain rfl := Option.some.inj hd
      exact ⟨j.2, rfl, hm.2⟩
    · rw [if_neg hname] at hd
      rw [if_neg (hm.1 ▸ hname)]
      exact ih hd

end Datum

/-! ## Attributes among the members -/

namespace LogLine

variable {context : Context} {r : LogRecord}

/-- The attributes that are not left out, as a line shows them. -/
def shownAttributes (attributes : List (Text × Datum)) : List (Text × Datum) :=
  (attributes.filter fun a => !isHidden a.1).map fun a => (a.1, display a.1 a.2)

theorem withAttributes_eq (attributes members : List (Text × Datum)) :
    withAttributes attributes members = setMembers (shownAttributes attributes) members := by
  rw [setMembers, shownAttributes, List.foldl_map]
  rfl

theorem getMember?_shownAttributes (name : Text) (attributes : List (Text × Datum)) :
    getMember? name (shownAttributes attributes) =
      if isHidden name then none else (getMember? name attributes).map (display name) := by
  unfold shownAttributes
  induction attributes with
  | nil => simp [getMember?]
  | cons a attributes ih =>
    obtain ⟨n, d⟩ := a
    by_cases hname : n = name
    · subst hname
      cases hhidden : isHidden n with
      | true => simpa [hhidden] using ih
      | false => simp [hhidden, getMember?]
    · rw [getMember?, if_neg hname, ← ih]
      cases hhidden : isHidden n with
      | true => simp [hhidden]
      | false => simp [hhidden, getMember?, hname]

/-- The last attribute of a name takes the place of the member of that name, unless the line leaves
the name out. -/
theorem getMember?_withAttributes (name : Text) (attributes members : List (Text × Datum)) :
    getMember? name (withAttributes attributes members) =
      if isHidden name then getMember? name members
      else ((getMember? name attributes.reverse).map (display name)).or
        (getMember? name members) := by
  have hreverse : (shownAttributes attributes).reverse = shownAttributes attributes.reverse := by
    simp [shownAttributes]
  rw [withAttributes_eq, getMember?_setMembers, hreverse, getMember?_shownAttributes]
  split <;> rfl

/-! ## The members that come from the record and the context -/

/-- The members that correlate a line, with what the record and the context have for them. -/
def correlated (context : Context) (r : LogRecord) : List (Text × Datum) :=
  [("timestamp".toList, .text (Moment.ofMicros r.created).render), ("level".toList, .text r.level),
    ("logger".toList, .text r.logger),
    (Tracing.traceKey, (getMember? Tracing.traceKey context).getD (.text [])),
    (Tracing.spanKey, (getMember? Tracing.spanKey context).getD (.text []))]

theorem getMember?_core (context : Context) (r : LogRecord) (message : Text) {own : Text × Datum}
    (h : own ∈ correlated context r) :
    isHidden own.1 = false ∧
      getMember? own.1 (core context r (Moment.ofMicros r.created).render message) =
        some own.2 := by
  revert own
  simp only [correlated, List.forall_mem_cons, List.not_mem_nil, false_implies, implies_true,
    and_true]
  exact ⟨⟨by decide, rfl⟩, ⟨by decide, rfl⟩, ⟨by decide, rfl⟩, ⟨by decide, rfl⟩, ⟨by decide, rfl⟩⟩

theorem names_sublist {α : Type} (name : Text) (f : α → Datum) (o : Option α) :
    ((o.map fun a => (name, f a)).toList.map Prod.fst).Sublist [name] := by
  cases o with
  | none => exact List.nil_sublist _
  | some a => exact List.Sublist.refl _

theorem nodup_names_core (context : Context) (r : LogRecord) (time message : Text) :
    ((core context r time message).map Prod.fst).Nodup := by
  have hall : (["timestamp".toList, "level".toList, "message".toList, "logger".toList,
    Tracing.traceKey, Tracing.spanKey] ++ ["component".toList] ++ [Tracing.engineKey] ++
    ["exception".toList]).Nodup := by decide
  refine List.Nodup.sublist ?_ hall
  unfold core
  simp only [List.map_append]
  refine (((List.Sublist.refl _).append ?_).append ?_).append ?_
  · exact names_sublist _ _ _
  · exact names_sublist _ id _
  · exact names_sublist _ _ _

theorem timestamp_eq_ok {micros : Int} {time : Text} (h : timestamp micros = .ok time) :
    time = (Moment.ofMicros micros).render := by
  unfold timestamp at h
  simp only at h
  split at h
  · exact (Except.ok.inj h).symm
  · exact absurd h (by simp)

/-- What the members of a line are made of. -/
theorem members_eq_ok {ms : List (Text × Datum)} (h : members context r = .ok ms) :
    ∃ message, r.message = .ok message ∧
      ms = withAttributes r.attributes
        (core context r (Moment.ofMicros r.created).render message) := by
  unfold members at h
  obtain ⟨time, htime, h⟩ := bind_eq_ok.1 h
  obtain ⟨message, hmessage, h⟩ := bind_eq_ok.1 h
  rw [← timestamp_eq_ok htime]
  exact ⟨message, mapError_eq_ok.1 hmessage, (Except.ok.inj h).symm⟩

/-! ## What a line tells -/

/-- The attribute of a record under a name, the last one if there are several. -/
def attribute? (r : LogRecord) (name : Text) : Option Datum :=
  getMember? name r.attributes.reverse

theorem getMember?_members {ms : List (Text × Datum)} (h : members context r = .ok ms)
    {own : Text × Datum} (hown : own ∈ correlated context r) :
    getMember? own.1 ms = some (((attribute? r own.1).map (display own.1)).getD own.2) := by
  obtain ⟨message, -, rfl⟩ := members_eq_ok h
  obtain ⟨hhidden, hcore⟩ := getMember?_core context r message hown
  rw [getMember?_withAttributes, hhidden, hcore, attribute?]
  cases getMember? own.1 r.attributes.reverse <;> rfl

theorem message_members {ms : List (Text × Datum)} (h : members context r = .ok ms) :
    ∃ message, r.message = .ok message ∧
      getMember? "message".toList ms = some (.text (Text.clip messageLimit message)) := by
  obtain ⟨message, hmessage, rfl⟩ := members_eq_ok h
  refine ⟨message, hmessage, ?_⟩
  rw [getMember?_withAttributes]
  rfl

theorem nodup_names_members {ms : List (Text × Datum)} (h : members context r = .ok ms) :
    (ms.map Prod.fst).Nodup := by
  obtain ⟨message, -, rfl⟩ := members_eq_ok h
  rw [withAttributes_eq]
  exact nodup_names_setMembers (nodup_names_core _ _ _ _)

theorem render_eq_ok {line : Text} (h : render context r = .ok line) :
    ∃ ms js, members context r = .ok ms ∧ Datum.Serializes ms js ∧
      line = Json.render Json.compact (.obj js) := by
  unfold render json at h
  obtain ⟨j, hj, rfl⟩ := map_eq_ok.1 h
  obtain ⟨ms, hms, hjson⟩ := bind_eq_ok.1 hj
  obtain ⟨js, rfl, hjs⟩ := Datum.exists_serializes_of_toJson (mapError_eq_ok.1 hjson)
  exact ⟨ms, js, hms, hjs, rfl⟩

/-- A line is an object in which every name stands once. It tells the message of its record, clipped,
whatever the attributes are. Its time, level, logger and ids are those of the record and of the
context that is active when the line is written, unless an attribute has the name of such a member:
then the line tells the last attribute of that name, and the record's or context's own value exactly
if the two are the same. -/
theorem render_tells {ids : IdSource} {t : Tracing} {line : Text}
    (h : render (t.read ids).2 r = .ok line) :
    ∃ js, line = Json.render Json.compact (.obj js) ∧ (js.map Prod.fst).Nodup ∧
      (∃ message, r.message = .ok message ∧
        getMember? "message".toList js = some (.str (Text.clip messageLimit message))) ∧
      ∀ own ∈ correlated (t.read ids).1.members r,
        ∃ j, getMember? own.1 js = some j ∧
          (((attribute? r own.1).map (display own.1)).getD own.2).toJson = .ok j ∧
          (own.2.toJson = .ok j ↔
            ∀ d, attribute? r own.1 = some d → (display own.1 d).toJson = own.2.toJson) := by
  obtain ⟨ms, js, hms, hjs, rfl⟩ := render_eq_ok h
  rw [Tracing.members_read]
  refine ⟨js, rfl, ?_, ?_, ?_⟩
  · rw [hjs.names_eq]
    exact nodup_names_members hms
  · obtain ⟨message, hmessage, hmember⟩ := message_members hms
    obtain ⟨j, hj, htext⟩ := hjs.getMember? hmember
    obtain rfl := Except.ok.inj htext
    exact ⟨message, hmessage, hj⟩
  · intro own hown
    obtain ⟨j, hj, htold⟩ := hjs.getMember? (getMember?_members hms hown)
    refine ⟨j, hj, htold, ?_⟩
    cases hattribute : attribute? r own.1 with
    | none =>
      rw [hattribute] at htold
      exact iff_of_true htold (by simp)
    | some d =>
      rw [hattribute] at htold
      simp only [Option.some.injEq, forall_eq']
      rw [← show (display own.1 d).toJson = .ok j from htold]
      exact eq_comm

/-- An attribute with the name of the level takes its place, and one with that of the message does
not. -/
theorem render_tells_level :
    let ids : IdSource := ⟨fun _ => List.replicate 32 'a', fun _ => List.replicate 16 'b'⟩
    let t : Tracing := ⟨some [(Tracing.traceKey, .text "t".toList)], 0⟩
    let r : LogRecord := ⟨0, "INFO".toList, "notes".toList, "m".toList, [], none,
      [("level".toList, .text "LOUD".toList), ("message".toList, .text "x".toList)]⟩
    ∃ line js, render (t.read ids).2 r = .ok line ∧
      line = Json.render Json.compact (.obj js) ∧
      getMember? "message".toList js = some (.str "m".toList) ∧
      getMember? "level".toList js = some (.str "LOUD".toList) ∧
      getMember? Tracing.traceKey js = some (.str "t".toList) := by
  intro ids t r
  have hwritten : (render (t.read ids).2 r).isOk = true := by decide +kernel
  cases hline : render (t.read ids).2 r with
  | error e =>
    rw [hline] at hwritten
    exact absurd hwritten (by simp [Except.isOk, Except.toBool])
  | ok line =>
    obtain ⟨js, hrender, -, ⟨message, hmessage, hmember⟩, hown⟩ := render_tells hline
    obtain rfl := Except.ok.inj hmessage
    obtain ⟨j, hlevel, hloud, -⟩ := hown ("level".toList, .text "INFO".toList) (.tail _ (.head _))
    obtain rfl := Except.ok.inj hloud
    obtain ⟨j, htrace, hsame, -⟩ :=
      hown (Tracing.traceKey, .text "t".toList) (.tail _ (.tail _ (.tail _ (.head _))))
    obtain rfl := Except.ok.inj hsame
    exact ⟨line, js, rfl, hrender, hmember, hlevel, htrace⟩

/-- An attribute with the name of the trace id hides the trace to which the line belongs. -/
theorem trace_id_overwritten :
    let ids : IdSource := ⟨fun _ => List.replicate 32 'a', fun _ => List.replicate 16 'b'⟩
    let t : Tracing :=
      ⟨some [(Tracing.traceKey, .text "t".toList), (Tracing.spanKey, .text "s".toList)], 0⟩
    let r : LogRecord := ⟨0, "INFO".toList, "a".toList, "m".toList, [], none,
      [(Tracing.traceKey, .text "x".toList)]⟩
    let line : Text :=
      "\x7b\"timestamp\":\"1970-01-01T00:00:00+00:00\",\"level\":\"INFO\",\"message\":\"m\"".toList ++
        ",\"logger\":\"a\",\"trace_id\":\"x\",\"span_id\":\"s\"\x7d".toList
    getMember? Tracing.traceKey (t.read ids).1.members = some (.text "t".toList) ∧
      (render (t.read ids).2 r).toOption = some line :=
  ⟨rfl, by decide +kernel⟩

end LogLine

end NoteQuery

import NoteQuery.Intake.Timestamp
import NoteQuery.Search.Result

/-!
# Reading notes, options and results

Each reader takes the members of a record in the order in which the type lists them and tells all
problems in that order. Members that no reader asks for are ignored.
-/

set_option autoImplicit false

namespace NoteQuery.Intake

/-! ## Tags -/

/-- The value that makes a value one that cannot be told from others: itself, or an entry of a
tuple. -/
def unhashable? : Datum → Option Datum
  | .list es => some (.list es)
  | .record ms => some (.record ms)
  | .set false es => some (.set false es)
  | .tuple es => firstUnhashable? es
  | _ => none
where
  firstUnhashable? : List Datum → Option Datum
    | [] => none
    | e :: es => unhashable? e <|> firstUnhashable? es

/-- The entries of what is given for tags: nothing means none, a single text one tag, a set its
entries in order, a record its names. -/
def tagEntries : Datum → Check (List Datum)
  | .null => .accepted []
  | .text t => .accepted [.text t]
  | .set _ es =>
    match Datum.sorted? es with
    | .ok sorted => .accepted sorted
    | .error p => .broken (.unordered p)
  | .list es | .tuple es => .accepted es
  | .record ms => .accepted (ms.map fun m => .text m.1)
  | .bytes b => .accepted (b.map fun (n : Nat) => .int n)
  | d => .broken (.notIterable d)

def tags (d : Datum) : Check (List Text) :=
  (tagEntries d).andThen fun es =>
    match es.findSome? unhashable? with
    | some e => .broken (.unhashable e)
    | none => .entries text 0 (Datum.distinct es)

/-! ## Records -/

/-- A moment under either of two names; the first one counts where both are there. -/
def momentNamed (first second : String) (ms : List (Text × Datum)) : Check (Option Moment) :=
  match getMember? first.toList ms with
  | some _ => optional first none (orNull moment) ms
  | none => optional second none (orNull moment) ms

def note (d : Datum) : Check Note :=
  (members d).andThen fun ms =>
    Note.mk <$> required "id" nonEmptyText ms <*> optional "title" [] text ms <*>
      optional "body" [] text ms <*> optional "tags" [] tags ms <*>
      momentNamed "createdAt" "created_at" ms <*> momentNamed "updatedAt" "updated_at" ms

def options (d : Datum) : Check Options :=
  (members d).andThen fun ms =>
    Options.mk <$> optional "max_results" 50 (integerFrom 1) ms <*>
      optional "include_body" true truth ms <*> optional "case_sensitive" false truth ms

def part : Datum → Check Note.Part
  | .text t =>
    match [Note.Part.tag, .title, .body].find? (·.name == t) with
    | some p => .accepted p
    | none => .flaw .unknownChoice
  | _ => .flaw .unknownChoice

def hit (d : Datum) : Check Match :=
  (members d).andThen fun ms =>
    Match.mk <$> required "type" part ms <*> required "excerpt" text ms <*>
      optional "indices" [] (listOf (pairOf integer)) ms

def queryInfo (d : Datum) : Check QueryInfo :=
  (members d).andThen fun ms =>
    QueryInfo.mk <$> required "original_query" text ms <*> required "parsed_query" text ms <*>
      required "execution_time_ms" (numberFrom 0.0) ms

def searchResult (d : Datum) : Check SearchResult :=
  (members d).andThen fun ms =>
    SearchResult.mk <$> required "note_id" text ms <*> required "title" text ms <*>
      optional "body" none (orNull text) ms <*> optional "tags" [] (listOf text) ms <*>
      optional "score" 1.0 number ms <*> optional "matches" [] (listOf hit) ms <*>
      required "query_info" queryInfo ms

def verdict (d : Datum) : Check Verdict :=
  (members d).andThen fun ms =>
    Verdict.mk <$> required "is_valid" truth ms <*> optional "error" none (orNull text) ms

/-- The size of a corpus. -/
def stats (d : Datum) : Check Stats :=
  (members d).andThen fun ms =>
    Stats.mk <$> required "note_count" integer ms <*> required "tag_count" integer ms <*>
      required "snapshot_version" integer ms

/-! ## Notes for a corpus -/

/-- What comes where a note is asked for. -/
inductive Offer where
  /-- A note, taken as it is. -/
  | note (note : Note)
  /-- A value that has to be a note. -/
  | datum (datum : Datum)
  /-- No note: what gives the notes fails here, with an error of some kind. -/
  | failure (kind message : Text)

def Offer.taken : Offer → Except Refusal Note
  | .note n => .ok n
  | .datum d => (Intake.note d).result "Note"
  | .failure kind message => .error (.failed kind message)

/-- Notes, each of which has to be one; the first that is none refuses them all. -/
def notes : List Offer → Except Refusal (List Note)
  | [] => .ok []
  | o :: os =>
    match o.taken with
    | .error r => .error r
    | .ok n =>
      match notes os with
      | .error r => .error r
      | .ok ns => .ok (n :: ns)

end NoteQuery.Intake

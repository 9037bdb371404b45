import NoteQuery.Text.Basic

/-!
# Excerpts

An excerpt is a window of a long text around a hit. The window is centred on the hit, moved where
it would reach past an end of the text, and then narrowed on either side to the nearest blank that
does not lie inside the hit; what was cut off is marked with dots. A hit that fills the window
alone is not narrowed.
-/

set_option autoImplicit false

namespace NoteQuery.Excerpt

/-- The mark for what was cut off. -/
def ellipsis : Text := "...".toList

/-- An offset moved between the ends of a text. -/
def clamp (t : Text) (i : Int) : Nat :=
  min i.toNat t.length

/-- The offset behind the first run of blanks between two offsets. -/
def firstBlankEnd? (t : Text) (a b : Int) : Option Int :=
  let region := Text.slice t (clamp t a) (clamp t b)
  let word := region.takeWhile (!Text.isBlank ·)
  let rest := region.dropWhile (!Text.isBlank ·)
  if rest.isEmpty then none
  else some (clamp t a + word.length + (rest.takeWhile Text.isBlank).length)

/-- The offset where the last run of blanks between two offsets starts. -/
def lastBlankStart? (t : Text) (a b : Int) : Option Int :=
  let region := Text.slice t (clamp t a) (clamp t b)
  let rest := region.reverse.dropWhile (!Text.isBlank ·)
  if rest.isEmpty then none
  else some (clamp t a + rest.length - (rest.takeWhile Text.isBlank).length)

/-- The window of at most `limit` characters around the hit from `start` to `stop`. -/
def window (t : Text) (start stop limit : Int) : Int × Int :=
  let size := stop - start
  if limit ≤ size then (start, start + limit)
  else
    let length : Int := t.length
    let context := (limit - size) / 2
    let right := min length (max 0 (start - context) + limit)
    let left := max 0 (right - limit)
    let left' := if 0 < left then (firstBlankEnd? t left start).getD left else left
    let right' := if right < length then (lastBlankStart? t stop right).getD right else right
    (left', right')

/-- The excerpt of a text around the hit from `start` to `stop`; a text of at most `limit`
characters is its own excerpt. -/
def build (t : Text) (start stop limit : Int) : Text :=
  if (t.length : Int) ≤ limit then t
  else
    let (left, right) := window t start stop limit
    (if 0 < left then ellipsis else []) ++ Text.trim (Text.between t left right) ++
      (if right < t.length then ellipsis else [])

end NoteQuery.Excerpt

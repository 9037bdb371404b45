import NoteQuery.Text.Quoted

/-!
# Paths and files

A path is normalised before it is used or shown: repeated slashes and single dots go, and nothing
at all means the current directory. Two slashes at the front, and no more, are kept.
-/

set_option autoImplicit false

namespace NoteQuery

namespace FilePath

def parts : Text → List Text
  | [] => [[]]
  | c :: t =>
    if c = '/' then [] :: parts t
    else
      match parts t with
      | p :: ps => (c :: p) :: ps
      | [] => [[c]]

def names (t : Text) : List Text :=
  (parts t).filter fun p => !p.isEmpty && p != ['.']

/-- What stands in front of the names. -/
def root (t : Text) : Text :=
  let slashes := (t.takeWhile (· == '/')).length
  if slashes = 2 then ['/', '/'] else if 0 < slashes then ['/'] else []

def normalize (t : Text) : Text :=
  let path := root t ++ Text.join ['/'] (names t)
  if path.isEmpty then ['.'] else path

end FilePath

/-- Why a file cannot be read. -/
inductive FileError where
  | missing
  | denied
  /-- The path leads through something that is no directory. -/
  | notDirectory
  | isDirectory
  | nameTooLong
  | nullCharacter
  /-- The path has a character that no file name can have. -/
  | unencodable (reason : Text)
  deriving DecidableEq, Repr

def FileError.message (path : Text) : FileError → Text
  | .missing => "[Errno 2] No such file or directory: ".toList ++ Text.shown path
  | .denied => "[Errno 13] Permission denied: ".toList ++ Text.shown path
  | .notDirectory => "[Errno 20] Not a directory: ".toList ++ Text.shown path
  | .isDirectory => "[Errno 21] Is a directory: ".toList ++ Text.shown path
  | .nameTooLong => "[Errno 36] File name too long: ".toList ++ Text.shown path
  | .nullCharacter => "embedded null byte".toList
  | .unencodable reason => reason

end NoteQuery

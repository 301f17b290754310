import ClassLang.File.Source

/-!
# Files by path

A directory holds files by name. A path is followed name by name: an empty name and `.` stay where
they are, `..` goes up, and a file leads nowhere on. Of what lies above the directory nothing is
known but that it is there.
-/

namespace ClassLang

/-- What a path leads to. -/
inductive Entry where
  | file (bytes : List UInt8)
  | directory
  deriving DecidableEq, Repr

namespace Entry

/-- What can be read there; a directory opens, but reading it fails. -/
def source : Entry → Source
  | file bytes => .ofBytes bytes
  | directory =>
    { Source.ofBytes [] with readable := some 0, refusal := .system .isDirectory }

/-- The text of a file. -/
def text : Entry → Except Fault String
  | directory => .error (.system .isDirectory)
  | file bytes =>
    match String.fromUTF8? ⟨bytes.toArray⟩ with
    | some text => .ok text
    | none => .error .notText

end Entry

/-- The files of a directory. -/
structure Directory where
  files : List (String × List UInt8)
  deriving DecidableEq, Repr

/-- Where a path has led so far. -/
inductive Place where
  /-- So many directories above the one the path began in. -/
  | above (levels : Nat)
  | file (bytes : List UInt8)
  deriving DecidableEq, Repr

namespace Directory

/-- The greatest number of bytes in a name. -/
def nameLimit : Nat := 255

/-- The number of bytes from which on a path is too long. -/
def pathLimit : Nat := 4096

/-- Follow one name. -/
def step (d : Directory) (place : Place) (name : String) : Except SystemError Place :=
  match place with
  | .file _ => .error .notDirectory
  | .above n =>
    if name = "" ∨ name = "." then .ok place
    else if name = ".." then .ok (.above (n + 1))
    else if nameLimit < name.utf8ByteSize then .error .nameTooLong
    else if n = 0 then
      match d.files.lookup name with
      | some bytes => .ok (.file bytes)
      | none => .error .notFound
    else .error .notFound

/-- What a path leads to. -/
def find (d : Directory) (path : String) : Except SystemError Entry := do
  if path.contains (Char.ofNat 0) then throw .nameHasNul
  if pathLimit ≤ path.utf8ByteSize then throw .nameTooLong
  match path.splitOn "/" with
  | [""] => throw .notFound
  | names =>
    let start : Place := .above (if path.startsWith "/" then 1 else 0)
    match ← names.foldlM d.step start with
    | .file bytes => return .file bytes
    | .above _ => return .directory

end Directory

end ClassLang

/-
  SatReplay/CommandLine/Files.lean
  ================================
  **Files and the paths that lead to them.**  A path is followed name by name,
  and every place that it goes on from must be a directory.  So a path through
  a missing name fails even if `..` comes right after it, and a path through a
  file fails even if only `.` comes after it.
-/
import SatReplay.Bytes.Word

namespace SatReplay.CommandLine

/-- Why a file is not read or written. -/
inductive FileError where
  | notFound
  | denied
  | notDirectory
  | isDirectory
  | nameTooLong
  | other (reason : String)
deriving DecidableEq, Repr

def FileError.message : FileError → String
  | .notFound => "No such file or directory (os error 2)"
  | .denied => "Permission denied (os error 13)"
  | .notDirectory => "Not a directory (os error 20)"
  | .isDirectory => "Is a directory (os error 21)"
  | .nameTooLong => "File name too long (os error 36)"
  | .other reason => reason

/-! ### Places -/

/-- Where paths start: at the root, or at the directory that is some levels above
    the working directory, which is itself on level 0. -/
inductive Origin where
  | root
  | working (above : Nat)
deriving DecidableEq, Repr

/-- A place in the tree of files: the names that lead there. -/
structure Place where
  origin : Origin
  names : List String
deriving DecidableEq, Repr

namespace Place

/-- The place one level up; nothing is above the root. -/
def parent : Place → Place
  | ⟨.root, []⟩ => ⟨.root, []⟩
  | ⟨.working above, []⟩ => ⟨.working (above + 1), []⟩
  | ⟨origin, names⟩ => ⟨origin, names.dropLast⟩

def child (p : Place) (name : String) : Place := ⟨p.origin, p.names ++ [name]⟩

/-- Whether the way to the other place leads through this one. -/
def isAbove (p other : Place) : Bool :=
  p.origin = other.origin && p.names.isPrefixOf other.names && p.names ≠ other.names

end Place

/-! ### Paths -/

structure Path where
  start : Place
  names : List String
  /-- It ends in a slash after a name, which only a directory may have. -/
  endsInSlash : Bool
deriving DecidableEq, Repr

namespace Path

def ofText (text : String) : Path where
  start := ⟨if text.toList.head? = some '/' then .root else .working 0, []⟩
  names := (text.splitOn "/").filter (· ≠ "")
  endsInSlash := text.toList.getLast? = some '/'

/-- Names may not have more bytes. -/
def maxNameBytes : Nat := 255

/-- Paths may not have more bytes. -/
def maxBytes : Nat := 4095

end Path

/-! ### Files -/

/-- Files by their places.  The directories are those that are listed, those that
    a file or another directory is in, and all origins of paths. -/
structure FileStore where
  files : List (Place × Bytes)
  directories : List Place
deriving DecidableEq, Repr

namespace FileStore

def empty : FileStore := ⟨[], []⟩

def file? (s : FileStore) (p : Place) : Option Bytes := s.files.lookup p

def isDirectory (s : FileStore) (p : Place) : Bool :=
  p.names.isEmpty || s.directories.any (fun q => p = q || p.isAbove q) ||
    s.files.any fun (q, _) => p.isAbove q

/-- Makes sure that a path can go on from a place. -/
def checkDirectory (s : FileStore) (p : Place) : Except FileError Unit :=
  if (s.file? p).isSome then .error .notDirectory
  else if s.isDirectory p then .ok ()
  else .error .notFound

def step (s : FileStore) (p : Place) (name : String) : Except FileError Place := do
  s.checkDirectory p
  if name = "." then .ok p
  else if name = ".." then .ok p.parent
  else if Path.maxNameBytes < name.utf8ByteSize then .error .nameTooLong
  else .ok (p.child name)

def follow (s : FileStore) (p : Place) (names : List String) : Except FileError Place :=
  names.foldlM s.step p

/-- The path of a text that may be one. -/
def path (text : String) : Except FileError Path :=
  if Path.maxBytes < text.utf8ByteSize then .error .nameTooLong
  else if text = "" then .error .notFound
  else .ok (.ofText text)

def read (s : FileStore) (text : String) : Except FileError Bytes := do
  let path ← path text
  let place ← s.follow path.start path.names
  match s.file? place with
  | some content => if path.endsInSlash then .error .notDirectory else .ok content
  | none => if s.isDirectory place then .error .isDirectory else .error .notFound

def put (s : FileStore) (p : Place) (content : Bytes) : FileStore :=
  { s with files := (p, content) :: s.files.filter fun (q, _) => q ≠ p }

/-- Writes a whole file.  Its directory must be there, and its path must end in
    its name; this is seen before the name itself is looked at. -/
def write (s : FileStore) (text : String) (content : Bytes) : Except FileError FileStore := do
  let path ← path text
  match path.names.getLast? with
  | none => .error .isDirectory
  | some name =>
    let directory ← s.follow path.start path.names.dropLast
    s.checkDirectory directory
    if path.endsInSlash then .error .isDirectory
    else
      let place ← s.step directory name
      if s.isDirectory place then .error .isDirectory else .ok (s.put place content)

end FileStore

end SatReplay.CommandLine

/-! # Files

A command reads files by path. A tree of files holds them all; paths are followed
through its directories part by part.
-/

namespace TypeBounds

/-- Why a file has no content. -/
inductive FileError where
  | absent
  /-- Something on the way is a file. -/
  | notDirectory
  | isDirectory
  | other (reason : String)
  deriving Repr, DecidableEq

def FileError.reason : FileError → String
  | .absent => "no such file or directory"
  | .notDirectory => "not a directory"
  | .isDirectory => "is a directory"
  | .other reason => reason

/-- The files below a directory, each with the parts of its path. -/
structure FileTree where
  files : List (List String × String)

namespace FileTree

/-- The parts of a path. -/
def parts (path : String) : List String :=
  (path.splitToList (· == '/'))

def ofList (files : List (String × String)) : FileTree :=
  ⟨files.map fun (path, content) => (parts path, content)⟩

/-- Whether some file is below a place. -/
def isDirectory (t : FileTree) (place : List String) : Bool :=
  place.isEmpty || t.files.any fun (path, _) => place.isPrefixOf path && place.length < path.length

/-- Follow the parts of a path from a directory of the tree. Above the tree nothing is
    known but that there are directories. -/
def follow (t : FileTree) : (place : List String) → List String → Except FileError String
  | _, [] => .error .isDirectory
  | place, part :: rest =>
      if part = "" ∨ part = "." then follow t place rest
      else if part = ".." then
        if place.isEmpty then .error (if rest.all (· == "") then .isDirectory else .absent)
        else follow t place.dropLast rest
      else
        let next := place ++ [part]
        if t.isDirectory next then follow t next rest
        else match t.files.lookup next with
          | some content => if rest.isEmpty then .ok content else .error .notDirectory
          | none => .error .absent

/-- The content of the file at a path, seen from the top of the tree. -/
def read (t : FileTree) (path : String) : Except FileError String :=
  if path.isEmpty || path.startsWith "/" then .error .absent else t.follow [] (parts path)

end FileTree

end TypeBounds

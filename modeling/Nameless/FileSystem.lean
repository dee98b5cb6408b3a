/-!
# File systems

Program files are named by paths. A path is walked from the root if it starts with a stroke, and
from the working directory otherwise, one name after the other: an empty name and a single point
stay where they are, a double point goes up, and every name but the last has to lead to a directory.
So one file has many paths, for example `a.lc` and `.//a.lc`, but `a.lc/` opens nothing.

This file provides:
- `Place`: where a file or a directory is,
- `FileSystem`: directories, links and files, with a working directory,
- `FileSystem.addFiles`: puts files into the working directory,
- `FileSystem.walk`: where a path leads,
- `FileSystem.read?`: the content of the file that a path opens.
-/

namespace Nameless

/-- A place: the names that lead to it from the root, the last one first. -/
abbrev Place := List (List Char)

namespace Place

/-- The names between the strokes of a path. There is one more of them than there are strokes. -/
def names : List Char → List (List Char)
  | [] => [[]]
  | c :: rest =>
    match names rest with
    | [] => [[c]]
    | first :: more => if c = '/' then [] :: first :: more else (c :: first) :: more

/-- Whether a name stays in the directory where it is met. -/
def stays (name : List Char) : Bool :=
  name.isEmpty || name == ['.']

/-- The place that a path without double points names below another place. -/
def below (place : Place) (path : String) : Place :=
  ((names path.toList).filter (!stays ·)).reverse ++ place

/-- The place that a path without double points names below the root. -/
def ofPath (path : String) : Place :=
  below [] path

end Place

/-- A file system, as far as it is known. It has the directories that are listed, those above them
and those above its files. -/
structure FileSystem where
  directories : List Place := []
  /-- Names that stand for another place. -/
  links : List (Place × Place) := []
  files : List (Place × List UInt8) := []
  /-- The working directory. -/
  working : Place := []
  deriving Repr

namespace FileSystem

/-- Puts files with given paths and contents into the working directory. Of two files at one place
the first one stays. -/
def addFiles (fs : FileSystem) (files : List (String × List UInt8)) : FileSystem :=
  { fs with
    files := files.map (fun (path, content) => (fs.working.below path, content)) ++ fs.files }

/-- Whether there is a directory at a place. -/
def isDirectory (fs : FileSystem) (place : Place) : Bool :=
  place.isEmpty || place == fs.working || fs.directories.any (place.isSuffixOf ·) ||
    fs.files.any fun (file, _) => place ≠ file && place.isSuffixOf file

/-- Where a name leads from a place. Above the root is the root. -/
def step (fs : FileSystem) (place : Place) (name : List Char) : Option Place :=
  if !fs.isDirectory place then none
  else if Place.stays name then some place
  else if name = ['.', '.'] then some place.tail
  else some ((fs.links.lookup (name :: place)).getD (name :: place))

/-- Where a path leads. -/
def walk (fs : FileSystem) (path : List Char) : Option Place :=
  let start := if path.head? = some '/' then [] else fs.working
  (Place.names path).foldlM fs.step start

/-- The content of the file at a place. -/
def contentAt? (fs : FileSystem) (place : Place) : Option (List UInt8) :=
  fs.files.lookup place

/-- The bytes that a path may have. -/
def maxPath : Nat := 4095

/-- The content of the file that a path opens. -/
def read? (fs : FileSystem) (path : String) : Option (List UInt8) :=
  if path.utf8ByteSize ≤ maxPath then fs.walk path.toList >>= fs.contentAt? else none

end FileSystem
end Nameless

import Splice.Files.Path

/-!
# File trees

The files and directories below the working directory, as far as the search for dependencies can
see them. Nothing is known to exist outside the working directory.
-/

namespace Splice

/-- Files and directories by the names that lead to them. -/
structure FileTree where
  files : List (List String) := []
  directories : List (List String) := []

namespace FileTree

/-- The directories on the way to a name, itself included. -/
def ancestry (names : List String) : List (List String) :=
  (List.range (names.length + 1)).map names.take

/-- The tree that holds the given directories and files and the directories above them. -/
def ofPaths (directories files : List String) : FileTree :=
  let names (path : String) : List String := (Path.parts path).filter (!Path.isIdle ·)
  let files := files.map names
  { files
    directories := ((directories.map names) ++ files.map List.dropLast).flatMap ancestry }

def isDirectory (tree : FileTree) (names : List String) : Bool :=
  names.isEmpty || tree.directories.contains names

/-- Follow a path part from a directory, given by its names from the last to the first. -/
def enter (tree : FileTree) (directory : List String) (part : String) : Option (List String) :=
  if Path.isIdle part then some directory
  else if part == ".." then
    match directory with
    | [] => none
    | _ :: above => some above
  else if tree.isDirectory (part :: directory).reverse then some (part :: directory)
  else none

/-- The name of the file that the path leads to, if it leads to a file. -/
def fileName? (tree : FileTree) (path : String) : Option String :=
  if Path.isAbsolute path then none
  else
    match (Path.parts path).reverse with
    | [] => none
    | name :: above =>
      match above.reverse.foldlM tree.enter [] with
      | some directory => if tree.files.contains (name :: directory).reverse then some name else none
      | none => none

end FileTree

end Splice

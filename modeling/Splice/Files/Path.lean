/-!
# Paths

Paths as texts, and their parts between slashes.
-/

namespace Splice.Path

/-- The parts between slashes, empty ones included. -/
def parts (path : String) : List String :=
  path.splitOn "/"

def isAbsolute (path : String) : Bool :=
  path.startsWith "/"

/-- Whether a part stays where it is. -/
def isIdle (part : String) : Bool :=
  part == "" || part == "."

/-- Drop the parts at the end that stay where they are. -/
def dropIdle (parts : List String) : List String :=
  (parts.reverse.dropWhile isIdle).reverse

/-- How a path starts: at the root, explicitly here, or with its first part. -/
inductive Start where
  | root | here | part
  deriving DecidableEq

/-- A path after its start. -/
def split (path : String) : Start × List String :=
  match path.toList with
  | '/' :: rest => (.root, parts (String.ofList rest))
  | ['.'] => (.here, [])
  | '.' :: '/' :: rest => (.here, "" :: parts (String.ofList rest))
  | _ => (.part, parts path)

def Start.text : Start → String
  | root => "/"
  | here => "."
  | part => ""

/-- The path without its last part. Parts that stay where they are do not count as the last, and
neither the root nor the empty path has one. -/
def parent? (path : String) : Option String :=
  let (start, rest) := split path
  match dropIdle rest, start with
  | [], .here => some ""
  | [], _ => none
  | kept, _ => some (start.text ++ "/".intercalate (dropIdle kept.dropLast))

/-- A path below a directory. An absolute path stands for itself. -/
def join (directory path : String) : String :=
  if isAbsolute path || directory.isEmpty then path
  else if directory.endsWith "/" then directory ++ path
  else directory ++ "/" ++ path

end Splice.Path

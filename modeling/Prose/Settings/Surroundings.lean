/- Surroundings: what a program can look at outside of itself. Files and variables
   of the environment are reached through three questions, so that whatever is decided from their
   answers can be followed without a file system. -/
namespace Prose

/-- The files and environment variables that a program can ask for. -/
structure Surroundings (m : Type → Type) where
  /-- Whether there is something at a path. -/
  present : String → m Bool
  /-- The text of a file, if it can be read. -/
  text : String → m (Option String)
  /-- The value of an environment variable, if it is set. -/
  environment : String → m (Option String)

/-! ## Folders held in memory -/

/-- A working directory with its files, by their paths from there, and some environment variables. -/
structure Folder where
  /-- The path of the working directory from the root. -/
  directory : String
  files : List (String × String)
  environment : List (String × String)

namespace Folder

/-- The names of a path, and whether it starts at the root. -/
def names (path : String) : List String := (path.splitOn "/").filter (· != "")

/-- What may stand at a path. -/
inductive Place where
  | directory
  | file (text : String)

/-- All files by their names from the root. -/
def allFiles (f : Folder) : List (List String × String) :=
  f.files.map fun (path, text) => (names f.directory ++ names path, text)

/-- What stands at some names from the root. -/
def lookup? (f : Folder) (path : List String) : Option Place :=
  match f.allFiles.lookup path with
  | some text => some (.file text)
  | none =>
    if path.isPrefixOf (names f.directory) || f.allFiles.any fun e => path.isPrefixOf e.1 then
      some .directory
    else none

/-- Follows names from a directory on. -/
def follow (f : Folder) : List String → List String → Option Place
  | here, [] => f.lookup? here
  | here, name :: later =>
    match f.lookup? here with
    | some .directory =>
      if name = "." then follow f here later
      else if name = ".." then follow f here.dropLast later
      else follow f (here ++ [name]) later
    | _ => none

/-- What stands at a path. One that ends in a slash is a directory's. -/
def at? (f : Folder) (path : String) : Option Place :=
  if path.isEmpty then none
  else
    let start := if path.startsWith "/" then [] else names f.directory
    match f.follow start (names path) with
    | some (.file text) => if path.endsWith "/" then none else some (.file text)
    | place => place

/-- The folder as surroundings. -/
def surroundings (f : Folder) : Surroundings Id where
  present path := (f.at? path).isSome
  text path := match f.at? path with
    | some (.file text) => some text
    | _ => none
  environment name := f.environment.lookup name

end Folder

end Prose

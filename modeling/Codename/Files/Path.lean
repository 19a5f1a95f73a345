/-!
# Paths

A path is a text whose components are separated by slashes. Empty components and components `.` say
nothing, except for a `.` in front of a relative path. Nothing else is simplified: a path is kept as
it was written.

## Main definitions

* `Path.isAbsolute`, `Path.parent?`, `Path.join` — the parts of paths and their composition.
* `Path.components` — the components that say something.
* `Path.resolve` — a path relative to the directory of a file.
-/

namespace Codename.Path

/-- Whether the path starts at the root. -/
def isAbsolute (path : String) : Bool :=
  path.toList.head? == some '/'

/-- Splits off the root, or the component `.` that a relative path starts with. -/
def splitStart (path : List Char) : List Char × List Char :=
  match path with
  | '/' :: rest => (['/'], rest)
  | ['.'] => (['.'], [])
  | '.' :: '/' :: rest => (['.'], '/' :: rest)
  | _ => ([], path)

/-- Drops from the front of a reversed text the components that say nothing, with their slashes. -/
def dropSilent : List Char → List Char
  | '/' :: rest => dropSilent rest
  | '.' :: '/' :: rest => dropSilent rest
  | ['.'] => []
  | rest => rest

/-- The path without its last component. The root and the empty path have none. -/
def parent? (path : String) : Option String :=
  let (start, body) := splitStart path.toList
  match dropSilent body.reverse with
  | [] => if start = ['.'] then some "" else none
  | reversed =>
    some (String.ofList (start ++ (dropSilent (reversed.dropWhile (· ≠ '/'))).reverse))

/-- A path inside a directory. An absolute path stands for itself. -/
def join (directory path : String) : String :=
  if isAbsolute path then path
  else if directory.isEmpty || directory.toList.getLast? == some '/' then directory ++ path
  else directory ++ "/" ++ path

/-- Where a locator that is written in a file points to: relative locators start at the directory of
the file. -/
def resolve (file locator : String) : String :=
  if isAbsolute locator then locator
  else
    match parent? file with
    | some directory => join directory locator
    | none => locator

/-- Cuts a text at its slashes. -/
def cut : List Char → List (List Char)
  | [] => [[]]
  | c :: rest =>
    if c = '/' then [] :: cut rest
    else
      match cut rest with
      | [] => [[c]]
      | part :: parts => (c :: part) :: parts

/-- The components of a path that say something. -/
def components (path : String) : List String :=
  ((cut path.toList).filter fun part => part ≠ [] && part ≠ ['.']).map String.ofList

end Codename.Path

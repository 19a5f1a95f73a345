import Codename.Files.Host
import Codename.Files.Path

/-!
# File trees

A file tree is a set of files and directories as a value. Paths are walked from the root or from the
current directory, one component after another, and every component but the last has to be that of a
directory.

## Main definitions

* `Tree` — files and directories by their place below the root.
* `Tree.locate` — the place that a path leads to.
* `Tree.read`, `Tree.write`, `Tree.makeDirectories` — operations on files.
* `Tree.host` — a tree as the machine that a program runs on.
-/

namespace Codename.Files

/-- What stands at a place. -/
inductive Node where
  | directory
  | file (content : ByteArray)

def Node.isDirectory : Node → Bool
  | .directory => true
  | .file _ => false

/-- The names of the directories on the way from the root, and the last name. -/
abbrev Place := List String

/-- Files and directories. The root is always a directory. -/
structure Tree where
  nodes : List (Place × Node)
  /-- The directory that relative paths start from. -/
  current : Place

namespace Tree

def node? (tree : Tree) (place : Place) : Option Node :=
  if place = [] then some .directory else (tree.nodes.find? (·.1 == place)).map Prod.snd

def put (tree : Tree) (place : Place) (node : Node) : Tree :=
  { tree with nodes := (place, node) :: tree.nodes.filter (·.1 != place) }

/-- The place of a component in a directory. -/
def step (place : Place) (component : String) : Place :=
  if component = "." then place
  else if component = ".." then place.dropLast
  else place ++ [component]

/-- Walks along components from a place. All places on the way have to be directories, while the
last one need not exist. -/
def walk (tree : Tree) : Place → List String → Except FileError Place
  | place, [] => .ok place
  | place, component :: rest =>
    match tree.node? place with
    | none => .error .notFound
    | some (.file _) => .error .notDirectory
    | some .directory => walk tree (step place component) rest

def origin (tree : Tree) (path : String) : Place :=
  if Path.isAbsolute path then [] else tree.current

/-- Whether a path ends with a slash, and so can only be that of a directory. -/
def endsWithSlash (path : String) : Bool :=
  path.toList.getLast? == some '/'

/-- All components of a path, those that say nothing included. -/
def rawComponents (path : String) : List String :=
  ((Path.cut path.toList).filter (· ≠ [])).map String.ofList

/-- The place that a path leads to, as far as that can be said without looking at it. The empty path
leads nowhere. -/
def locate (tree : Tree) (path : String) : Except FileError Place :=
  if path.isEmpty then .error .notFound
  else tree.walk (tree.origin path) (rawComponents path)

/-- What stands at the end of a path. A slash at its end asks for a directory. -/
def lookUp (tree : Tree) (path : String) : Except FileError Node := do
  let place ← tree.locate path
  match tree.node? place with
  | none => .error .notFound
  | some (.file content) =>
    if endsWithSlash path then .error .notDirectory else pure (.file content)
  | some .directory => pure .directory

def read (tree : Tree) (path : String) : Except FileError String := do
  match ← tree.lookUp path with
  | .directory => .error .isDirectory
  | .file content =>
    match String.fromUTF8? content with
    | some text => pure text
    | none => .error .notText

/-- The tree with a file made at the path, or with its content replaced. -/
def write (tree : Tree) (path : String) (content : ByteArray) : Except FileError Tree := do
  let place ← tree.locate path
  match tree.node? place with
  | some .directory => .error .isDirectory
  | _ => if endsWithSlash path then .error .isDirectory else pure (tree.put place (.file content))

/-- The tree with a new directory at the end of the components. -/
def makeDirectory (tree : Tree) (start : Place) (components : List String) :
    Except FileError Tree := do
  let place ← tree.walk start components
  match tree.node? place with
  | some _ => .error .alreadyExists
  | none => pure (tree.put place .directory)

def isDirectory (tree : Tree) (start : Place) (components : List String) : Bool :=
  match tree.walk start components with
  | .ok place => (tree.node? place).any Node.isDirectory
  | .error _ => false

/-- Makes the directory at the end of some components, given in reversed order, after those it is
in. What was made stays if the rest fails. -/
def makeAll (start : Place) : List String → Tree → Except FileError Unit × Tree
  | [], tree => (.ok (), tree)
  | component :: outer, tree =>
    let components := (component :: outer).reverse
    let settle (tree : Tree) (error : FileError) : Except FileError Unit × Tree :=
      (if tree.isDirectory start components then .ok () else .error error, tree)
    match tree.makeDirectory start components with
    | .ok tree => (.ok (), tree)
    | .error .notFound =>
      match makeAll start outer tree with
      | (.error error, tree) => (.error error, tree)
      | (.ok (), tree) =>
        match tree.makeDirectory start components with
        | .ok tree => (.ok (), tree)
        | .error error => settle tree error
    | .error error => settle tree error

/-- Makes the directory at a path and all directories that it is in. -/
def makeDirectories (path : String) (tree : Tree) : Except FileError Unit × Tree :=
  makeAll (tree.origin path) (Path.components path).reverse tree

/-- A tree as the machine that a program runs on, with the standard input given as bytes. -/
def host (input : ByteArray) : Host (StateM Tree) where
  read path := do
    return (← get).read path
  write path text := do
    match (← get).write path text.toUTF8 with
    | .ok tree =>
      set tree
      return .ok ()
    | .error error => return .error error
  makeDirectories path := modifyGet (makeDirectories path)
  readInput := return match String.fromUTF8? input with
    | some text => .ok text
    | none => .error .notText

end Tree

end Codename.Files

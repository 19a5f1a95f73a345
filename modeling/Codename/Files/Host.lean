/-!
# Hosts

What the program asks of the machine that it runs on: to read and write files as text, to make
directories and to read the standard input. The same program then runs on real files and on a file
tree that is a value.

## Main definitions

* `FileError` — why reading or writing a file fails.
* `Host` — the services of a machine, in a monad.
-/

namespace Codename.Files

/-- Why a file could not be read or written. -/
inductive FileError where
  /-- There is nothing at the path. -/
  | notFound
  /-- A component of the path is a file, though more components follow. -/
  | notDirectory
  /-- The path is that of a directory. -/
  | isDirectory
  /-- The path of a new directory is taken. -/
  | alreadyExists
  /-- The content is not encoded as UTF-8. -/
  | notText
  /-- Any other failure, by its message. -/
  | other (message : String)
  deriving Repr, DecidableEq

def FileError.message : FileError → String
  | .notFound => "No such file or directory (os error 2)"
  | .notDirectory => "Not a directory (os error 20)"
  | .isDirectory => "Is a directory (os error 21)"
  | .alreadyExists => "File exists (os error 17)"
  | .notText => "stream did not contain valid UTF-8"
  | .other message => message

/-- The services of the machine that the program runs on. -/
structure Host (m : Type → Type) where
  /-- The text of a file. -/
  read : String → m (Except FileError String)
  /-- Makes a file or replaces its content. -/
  write : String → String → m (Except FileError Unit)
  /-- Makes a directory and all directories that it is in. -/
  makeDirectories : String → m (Except FileError Unit)
  /-- The text of the standard input. -/
  readInput : m (Except FileError String)

end Codename.Files

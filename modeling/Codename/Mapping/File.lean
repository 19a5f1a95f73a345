import Codename.Files.Host
import Codename.Mapping.Format

/-!
# Mappings in files

## Main definitions

* `Mapping.OpenError` — why a file gives no mapping.
* `Mapping.fromFile`, `Mapping.toFile` — a mapping from a file and into one.
-/

namespace Codename.Mapping

open Codename.Files (FileError Host)

/-- Why a file gives no mapping, or none could be written. -/
inductive OpenError where
  | file (error : FileError)
  | content (error : LoadError)
  deriving Repr, DecidableEq

namespace OpenError

def message : OpenError → String
  | .file error => s!"I/O error: {error.message}"
  | .content error => error.message

/-- The error behind the error, in its own words. -/
def cause? : OpenError → Option String
  | .file error => some error.message
  | .content (.malformed fault) => some fault.message
  | .content (.invalidName _) => none

end OpenError

variable {m : Type → Type} [Monad m]

/-- The mapping in the content of a file. -/
def ofContent (content : Except FileError String) : Except OpenError Mapping :=
  match content with
  | .error error => .error (.file error)
  | .ok text => (ofText text).mapError .content

def fromFile (host : Host m) (path : String) : m (Except OpenError Mapping) :=
  return ofContent (← host.read path)

/-- Writes a mapping into a file, in the indented form. -/
def toFile (mapping : Mapping) (host : Host m) (path : String) :
    m (Except OpenError Unit) := do
  let written ← host.write path mapping.document.toJson.indented
  return written.mapError .file

end Codename.Mapping

import Codename.Catalog.Format
import Codename.Files.Host
import Codename.Files.Path
import Codename.Mapping.Format

/-!
# Sources of catalogs and mappings

A source gives the catalog and the mapping documents. It keeps nothing: each load asks anew, and its
answer can change.

## Main definitions

* `Source` — where a session loads from.
* `Source.ofFiles` — a catalog file and the documents whose locators it holds.
-/

namespace Codename.Session

open Codename.Files (FileError Host)

/-- Where a session loads its catalog and its documents from. A load that fails gives a reason. -/
structure Source (m : Type → Type) where
  loadCatalog : m (Except String Catalog)
  loadDocument : Catalog.Entry → m (Except String Mapping.Document)

/-- Why a file holds no value of a kind. -/
inductive FileProblem where
  | unreadable (error : FileError)
  | malformed (fault : Json.Fault)
  deriving Repr, DecidableEq

def FileProblem.message : FileProblem → String
  | .unreadable error => error.message
  | .malformed fault => fault.message

/-- Reads a value from the text of a file. -/
def readValue {α : Type} (reader : Json.Reader α) (content : Except FileError String) :
    Except FileProblem α :=
  match content with
  | .error error => .error (.unreadable error)
  | .ok text => (reader.parse text).mapError .malformed

namespace Source

variable {m : Type → Type} [Monad m]

/-- Loads a value from a file. The reason of a failure starts with the path. -/
def loadFile {α : Type} (host : Host m) (reader : Json.Reader α) (path : String) :
    m (Except String α) := do
  let content ← host.read path
  return (readValue reader content).mapError fun problem => s!"{path}: {problem.message}"

/-- The catalog in a file, and the documents that its entries locate from there. -/
def ofFiles (host : Host m) (catalog : String) : Source m where
  loadCatalog := loadFile host Catalog.reader catalog
  loadDocument entry := loadFile host Mapping.Document.reader (Path.resolve catalog entry.locator)

end Source

end Codename.Session

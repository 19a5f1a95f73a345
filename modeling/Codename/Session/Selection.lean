import Codename.Catalog.Format
import Codename.Files.Host
import Codename.Files.Path
import Codename.Session.Source

/-!
# Remembering the selected schema

A selection store keeps the entry of the schema that was selected last, so that the next session can
start with it.

## Main definitions

* `SelectionStore` — where the selection is kept.
* `SelectionStore.ofFile` — a store in a file.
* `SelectionStore.inMemory` — a store in memory.
* `SelectionStore.forgetful` — a store that keeps nothing.
-/

namespace Codename.Session

open Codename.Files (FileError Host)

/-- Where a session keeps its selection. A load or save that fails gives a reason. -/
structure SelectionStore (m : Type → Type) where
  load : m (Except String (Option Catalog.Entry))
  save : Catalog.Entry → m (Except String Unit)

namespace SelectionStore

variable {m : Type → Type} [Monad m]

/-- The entry in the content of a selection file. A file that is not there holds none. -/
def readEntry (path : String) (content : Except FileError String) :
    Except String (Option Catalog.Entry) :=
  match readValue Catalog.Entry.reader content with
  | .ok entry => .ok (some entry)
  | .error (.unreadable .notFound) => .ok none
  | .error (.unreadable error) => .error error.message
  | .error (.malformed fault) => .error s!"{path}: {fault.message}"

/-- A store in a file, whose directory is made when it is needed. -/
def ofFile (host : Host m) (path : String) : SelectionStore m where
  load := return readEntry path (← host.read path)
  save entry := do
    let made ← match Path.parent? path with
      | some directory => host.makeDirectories directory
      | none => pure (.ok ())
    match made with
    | .error error => return .error error.message
    | .ok () =>
      let written ← host.write path entry.toJson.compact
      return written.mapError (·.message)

/-- A store in the memory of the program, for as long as the program runs. -/
def inMemory : SelectionStore (StateM (Option Catalog.Entry)) where
  load := return .ok (← get)
  save entry := do
    set (some entry)
    return .ok ()

/-- A store that keeps nothing. It stands for a store in memory that is empty at first: a session
reads its store once, before it saves anything, and so it does not notice that nothing is kept
(`Service.trace_ofConfig_inMemory`). -/
def forgetful : SelectionStore m where
  load := return .ok none
  save _ := return .ok ()

end SelectionStore

end Codename.Session

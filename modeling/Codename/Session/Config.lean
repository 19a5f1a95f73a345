import Codename.Files.Path
import Codename.Json.Record
import Codename.Json.Value

/-!
# Configuration of a session

A session needs to know where its catalog is and in which file the selected schema is remembered, if
it is remembered at all.

## Main definitions

* `Config` — the two paths.
* `Home`, `Home.stateFile?` — where the selection is remembered by default.
* `Config.ofCatalog`, `Config.inMemory` — the usual configurations.
* `Config.reader`, `Config.toJson` — a configuration as JSON.
-/

namespace Codename

open Codename.Json

/-- Where a session finds its catalog and remembers its selection. -/
structure Config where
  catalog : String
  /-- The file of the selection. Without it the selection is forgotten with the session. -/
  stateFile? : Option String
  deriving Repr, DecidableEq

/-- The directories that a user's files are in. -/
structure Home where
  home? : Option String
  configHome? : Option String
  deriving Repr, DecidableEq

namespace Home

/-- The directory for configuration: the one that is set, if its path is absolute, or else one in
the home directory. -/
def configDirectory? (home : Home) : Option String :=
  match home.configHome?.filter Path.isAbsolute with
  | some directory => some directory
  | none => (home.home?.filter (!·.isEmpty)).map (Path.join · ".config")

/-- The file that the selection is remembered in by default. -/
def stateFile? (home : Home) : Option String :=
  home.configDirectory?.map fun directory =>
    Path.join (Path.join directory "psencrypt") "last_schema.json"

end Home

namespace Config

/-- The name of the catalog if none is given. -/
def defaultCatalog : String := "encryption-tables.json"

/-- The configuration for a catalog that remembers the selection in the default file. -/
def ofCatalog (home : Home) (catalog : String) : Config :=
  ⟨catalog, home.stateFile?⟩

/-- The configuration for a catalog that forgets the selection. -/
def inMemory (catalog : String) : Config := ⟨catalog, none⟩

/-- A configuration of which only some fields were read. -/
structure Partial where
  catalog? : Option String := none
  stateFile? : Option (Option String) := none

/-- The fields of a configuration. An object may lack the state file, a list may not. -/
def layout : Layout Partial Config where
  name := "StoreConfig"
  fields := [
    { name := "catalog"
      isSet := fun known => known.catalog?.isSome
      reader := (Reader.string "path string").map fun catalog known =>
        { known with catalog? := some catalog }
      optional := false },
    { name := "state_file"
      isSet := fun known => known.stateFile?.isSome
      reader := (Reader.string "path string").nullable.map fun stateFile known =>
        { known with stateFile? := some stateFile }
      optional := false }]
  start := {}
  finish known :=
    match known.catalog? with
    | none => .error (.missingField "catalog")
    | some catalog => .ok ⟨catalog, known.stateFile?.join⟩

def reader : Reader Config := layout.reader

def toJson (config : Config) : Value :=
  .object [
    ("catalog", .string config.catalog),
    ("state_file", (config.stateFile?.map Value.string).getD .null)]

end Config

end Codename

import Codename.Catalog.Basic
import Codename.Json.Record
import Codename.Json.Value

/-!
# The text of a catalog

A catalog is kept as a JSON list of its entries.

## Main definitions

* `Catalog.Entry.reader`, `Catalog.Entry.toJson` — an entry as JSON.
* `Catalog.reader`, `Catalog.toJson` — a catalog as JSON.
-/

namespace Codename.Catalog

open Codename.Json

namespace Entry

/-- An entry of which only some fields were read. -/
structure Partial where
  name? : Option String := none
  locator? : Option String := none
  isDefault? : Option Bool := none

/-- The fields of an entry. Only the mark may be missing. -/
def layout : Layout Partial Entry where
  name := "SchemaEntry"
  fields := [
    { name := "name"
      isSet := fun known => known.name?.isSome
      reader := (Reader.string "a string").map fun name known => { known with name? := some name }
      optional := false },
    { name := "url"
      isSet := fun known => known.locator?.isSome
      reader := (Reader.string "a string").map fun locator known =>
        { known with locator? := some locator }
      optional := false },
    { name := "default"
      isSet := fun known => known.isDefault?.isSome
      reader := Reader.boolean.map fun isDefault known =>
        { known with isDefault? := some isDefault }
      optional := true }]
  start := {}
  finish known :=
    match known.name?, known.locator? with
    | none, _ => .error (.missingField "name")
    | _, none => .error (.missingField "url")
    | some name, some locator => .ok ⟨name, locator, known.isDefault?.getD false⟩

def reader : Reader Entry := layout.reader

/-- An entry as it is written; a missing mark is left out. -/
def toJson (entry : Entry) : Value :=
  .object ([("name", .string entry.name), ("url", .string entry.locator)] ++
    if entry.isDefault then [("default", .boolean true)] else [])

end Entry

def reader : Reader Catalog := Entry.reader.list.map Catalog.mk

def toJson (catalog : Catalog) : Value :=
  .list (catalog.entries.map Entry.toJson)

end Codename.Catalog

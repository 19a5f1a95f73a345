import Codename.Session.Basic

/-!
# Shelves

A shelf is a source and a selection store that are values: the texts of a catalog and of documents,
the remembered entry, and how often something was loaded. Its texts can be exchanged while a session
goes on.

## Main definitions

* `Shelf`, `Shelf.service` — a shelf and the service that works with it.
-/

namespace Codename.Session

/-- A source and a selection store as a value. -/
structure Shelf where
  /-- The text of the catalog, if there is one. -/
  catalog? : Option String
  /-- The texts of the documents, by their locators. -/
  documents : KeyedList String
  remembered? : Option Catalog.Entry
  /-- Whether loading the remembered entry fails. -/
  failsToLoad : Bool := false
  /-- Whether saving an entry fails. -/
  failsToSave : Bool := false
  catalogLoads : Nat := 0
  documentLoads : Nat := 0

namespace Shelf

/-- What the catalog text says. -/
def readCatalog (shelf : Shelf) : Except String Catalog :=
  match shelf.catalog? with
  | none => .error "connection refused"
  | some text => (Catalog.reader.parse text).mapError (·.message)

/-- What the text of a document says. -/
def readDocument (shelf : Shelf) (locator : String) : Except String Mapping.Document :=
  match shelf.documents.get? locator with
  | none => .error s!"404 {locator}"
  | some text => (Mapping.Document.reader.parse text).mapError (·.message)

/-- The shelf as a source, which counts its loads. -/
def source : Source (StateM Shelf) where
  loadCatalog := modifyGet fun shelf =>
    (shelf.readCatalog, { shelf with catalogLoads := shelf.catalogLoads + 1 })
  loadDocument entry := modifyGet fun shelf =>
    (shelf.readDocument entry.locator, { shelf with documentLoads := shelf.documentLoads + 1 })

def selections : SelectionStore (StateM Shelf) where
  load := do
    let shelf ← get
    return if shelf.failsToLoad then .error "unavailable" else .ok shelf.remembered?
  save entry := modifyGet fun shelf =>
    if shelf.failsToSave then (.error "unavailable", shelf)
    else (.ok (), { shelf with remembered? := some entry })

def service : Service (StateM Shelf) where
  source := source
  selections := selections

end Shelf

end Codename.Session

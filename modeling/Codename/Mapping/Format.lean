import Codename.Json.Record
import Codename.Json.Value
import Codename.Mapping.Basic

/-!
# The text of a mapping

A mapping is kept as a JSON object with the members `tables` and `columns`, either of which may be
missing when it is read.

## Main definitions

* `Document.reader`, `Document.toJson` — how a document is read and written.
* `LoadError`, `Mapping.ofText` — a mapping from its text.
-/

namespace Codename.Mapping

open Codename.Json

/-- A keyed list as a JSON object. -/
def keyedJson {α : Type} (value : α → Value) (entries : KeyedList α) : Value :=
  .object (entries.entries.map fun (key, entry) => (key, value entry))

namespace Document

/-- A document of which only some members were read. -/
structure Partial where
  tables? : Option (KeyedList String) := none
  columns? : Option (KeyedList (KeyedList String)) := none

/-- The members of a document. Those that are missing are empty. -/
def layout : Layout Partial Document where
  name := "MappingDocument"
  fields := [
    { name := "tables"
      isSet := fun known => known.tables?.isSome
      reader := (Reader.string "a string").keyed.map fun tables known =>
        { known with tables? := some tables }
      optional := true },
    { name := "columns"
      isSet := fun known => known.columns?.isSome
      reader := (Reader.string "a string").keyed.keyed.map fun columns known =>
        { known with columns? := some columns }
      optional := true }]
  start := {}
  finish known := .ok ⟨known.tables?.getD ∅, known.columns?.getD ∅⟩

def reader : Reader Document := layout.reader

/-- A document as it is written, the tables first. -/
def toJson (document : Document) : Value :=
  .object [
    ("tables", keyedJson .string document.tables),
    ("columns", keyedJson (keyedJson .string) document.columns)]

end Document

/-- Why a text gives no mapping. A refused pattern of an identifier is not among the reasons: see
`Document.PatternsCompile`. -/
inductive LoadError where
  | malformed (fault : Fault)
  | invalidName (use : NameUse)
  deriving Repr, DecidableEq

def LoadError.message : LoadError → String
  | .malformed fault => s!"Mapping document error: {fault.message}"
  | .invalidName use => use.message

/-- The mapping that a text describes. Names are checked once the whole text was read. -/
def ofText (text : String) : Except LoadError Mapping :=
  match Document.reader.parse text with
  | .error fault => .error (.malformed fault)
  | .ok document => (ofDocument document).mapError .invalidName

end Codename.Mapping

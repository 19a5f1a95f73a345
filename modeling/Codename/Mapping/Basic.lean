import Codename.Mapping.Index

/-!
# Mappings

A mapping is a document all of whose names are identifiers, so that each stands for whole words of a
text. Tables go by a plain name and a code name; a column has a code name in each table that has the
column.

## Main definitions

* `Mapping`, `Mapping.ofDocument` — a checked document.
* `Mapping.codeTable?`, `Mapping.codeColumn?` — the code name of a table, or of a column of a table.
* `Mapping.index` — what is looked up, put together once.
* `Mapping.owners` — the tables that have a column.
* `Mapping.listedColumns`, `Mapping.columnNames` — the columns, table by table or each once.

## Main statements

* `Mapping.ofDocument_eq_ok_iff` — a document is accepted if all of its names are identifiers.
-/

namespace Codename

open Mapping (Document Index NameUse TableWords)

/-- A document all of whose names are identifiers. -/
structure Mapping where
  document : Document
  valid : ∀ use ∈ document.nameUses, use.isValid = true
  deriving DecidableEq

namespace Mapping

/-- Checks the names of a document; the first that is no identifier is the error. The patterns of
identifiers are taken to compile (`Document.PatternsCompile`). -/
def ofDocument (document : Document) : Except NameUse Mapping :=
  match h : document.nameUses.find? fun use => !use.isValid with
  | some use => .error use
  | none => .ok ⟨document, by simpa using h⟩

def tables (mapping : Mapping) : KeyedList String := mapping.document.tables

/-- The columns with their code names, under the code names of their tables. -/
def columns (mapping : Mapping) : KeyedList (KeyedList String) := mapping.document.columns

def codeTable? (mapping : Mapping) (table : String) : Option String :=
  mapping.tables.get? table

/-- The code name of a column of the table with the given code name. -/
def codeColumn? (mapping : Mapping) (codeTable column : String) : Option String :=
  (mapping.columns.get? codeTable).bind (·.get? column)

/-- Whether a table, given with its code name, has the column. -/
def hasColumn (mapping : Mapping) (column : String) (entry : String × String) : Bool :=
  (mapping.codeColumn? entry.2 column).isSome

/-- The table entries that have a column, in the order of the tables. -/
def owningEntries (mapping : Mapping) (column : String) : List (String × String) :=
  mapping.tables.entries.filter (mapping.hasColumn column)

theorem ofDocument_index (mapping : Mapping) :
    Index.ofDocument mapping.document = .ok (.unchecked mapping.document) := by
  rw [Index.ofDocument_eq, NameUse.checked_of_valid mapping.valid]

/-- The indexes of the document. Its names were checked, so that putting them together does not
fail. -/
def index (mapping : Mapping) : Index :=
  match h : Index.ofDocument mapping.document with
  | .ok index => index
  | .error use => absurd h (by rw [mapping.ofDocument_index]; nofun)

/-- The words by which a text mentions a table. -/
def tableWords? (mapping : Mapping) (table : String) : Option TableWords :=
  mapping.index.tableWords.get? table

/-- The word by which a text mentions a column. -/
def columnWord? (mapping : Mapping) (column : String) : Option String :=
  mapping.index.columnWords.get? column

/-- The plain names of the tables that have a column, in the order of the tables. -/
def owners (mapping : Mapping) (column : String) : List String :=
  (mapping.index.columnTables.get? column).getD []

/-- The columns as the mapping lists them, each as often as there are tables that have it. -/
def listedColumns (mapping : Mapping) : List String :=
  mapping.columns.values.flatMap KeyedList.keys

/-- The plain names of all columns, each at its first appearance. -/
def columnNames (mapping : Mapping) : List String :=
  mapping.listedColumns.eraseDups

/-- A document is accepted, unchanged, if all of its names are identifiers. -/
theorem ofDocument_eq_ok_iff {document : Document} {mapping : Mapping} :
    ofDocument document = .ok mapping ↔
      mapping.document = document ∧ ∀ use ∈ document.nameUses, use.isValid = true := by
  unfold ofDocument
  split
  · next use h =>
    have hinvalid := List.find?_some h
    have hmem := List.mem_of_find?_eq_some h
    constructor
    · rintro ⟨⟩
    · rintro ⟨-, hall⟩
      simp [hall use hmem] at hinvalid
  · next h =>
    have hall : ∀ use ∈ document.nameUses, use.isValid = true := by simpa using h
    constructor
    · rintro ⟨⟩
      exact ⟨rfl, hall⟩
    · rintro ⟨rfl, -⟩
      rfl

theorem index_eq (mapping : Mapping) : mapping.index = .unchecked mapping.document := by
  have hindex := mapping.ofDocument_index
  unfold index
  split
  · next index h => exact Except.ok.inj (h.symm.trans hindex)
  · next use h => cases h.symm.trans hindex

end Mapping

end Codename
